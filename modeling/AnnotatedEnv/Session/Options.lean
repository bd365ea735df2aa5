/-
Module: AnnotatedEnv.Session.Options
Purpose: The options of a session.
Main exports: SessionOptions
-/
import AnnotatedEnv.Model

namespace AnnotatedEnv

/-- Choices for one open document. -/
structure SessionOptions where
  load : LoadOptions := {}
  /-- Read the document again before every override, and take over what changed. -/
  verifyBeforeOverride : Bool := true
  /-- Leave out instructions that do not change their line. -/
  minimalPatches : Bool := false
  deriving DecidableEq, Repr

end AnnotatedEnv
