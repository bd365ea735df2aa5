import AnnotatedEnv.Main
import AnnotatedEnv.Session.Overlap
import AnnotatedEnv.Host.Memory
import AnnotatedEnv.Proofs.Assignment
import AnnotatedEnv.Proofs.OrderedMap
import AnnotatedEnv.Proofs.Section
import AnnotatedEnv.Proofs.Patch
import AnnotatedEnv.Proofs.Model
import AnnotatedEnv.Proofs.Override
import AnnotatedEnv.Proofs.LastWriter
import AnnotatedEnv.Proofs.Selection
import AnnotatedEnv.Proofs.WriteBack
import AnnotatedEnv.Proofs.ReadBack
import AnnotatedEnv.Proofs.Library
import AnnotatedEnv.Proofs.Session
import AnnotatedEnv.Proofs.Memory
import AnnotatedEnv.Proofs.History
import AnnotatedEnv.Proofs.Pace
import AnnotatedEnv.Proofs.Overlap
import AnnotatedEnv.Proofs.Regroup
import AnnotatedEnv.Proofs.Undisturbed
import AnnotatedEnv.Proofs.OwnLines
import AnnotatedEnv.Proofs.Constants
import AnnotatedEnv.Proofs.Verification
import AnnotatedEnv.Proofs.Turn
import AnnotatedEnv.Proofs.Containment
import AnnotatedEnv.Proofs.Course
import AnnotatedEnv.Proofs.Alike
import AnnotatedEnv.Proofs.LockStep
import AnnotatedEnv.Proofs.MinimalPatches
import AnnotatedEnv.Proofs.BaseCheck
import AnnotatedEnv.Proofs.Lines
import AnnotatedEnv.Proofs.Shelf
import AnnotatedEnv.Proofs.FileHost
import AnnotatedEnv.Proofs.LineEnds
import AnnotatedEnv.Proofs.CommandLine
import AnnotatedEnv.Proofs.Polls
import AnnotatedEnv.Proofs.Rejection
import AnnotatedEnv.Proofs.Rounds
import AnnotatedEnv.Proofs.Accord
import AnnotatedEnv.Proofs.Renumber
import AnnotatedEnv.Proofs.Diagnostics
import AnnotatedEnv.Proofs.Inert
import AnnotatedEnv.Proofs.Reorder
import AnnotatedEnv.Proofs.RoundTrip
import AnnotatedEnv.Proofs.Reopening
import AnnotatedEnv.Proofs.PatchRange
import AnnotatedEnv.Proofs.Hex
import AnnotatedEnv.Proofs.Forms
import AnnotatedEnv.Proofs.InstructionOrder
import AnnotatedEnv.Proofs.Marker
import AnnotatedEnv.Proofs.ForwardPass
import AnnotatedEnv.Proofs.Partition
import AnnotatedEnv.Proofs.Replacement
import AnnotatedEnv.Proofs.RepeatedKeys
import AnnotatedEnv.Proofs.ExactDiagnostics
import AnnotatedEnv.Proofs.Cuts
import AnnotatedEnv.Proofs.LineForm
import AnnotatedEnv.Proofs.FirstOccurrences
import AnnotatedEnv.Proofs.ValuePayload
import AnnotatedEnv.Proofs.ModeText
import AnnotatedEnv.Proofs.RepeatedModes
import AnnotatedEnv.Proofs.Overlay
import AnnotatedEnv.Proofs.Spelling
import AnnotatedEnv.Proofs.Recoding
import AnnotatedEnv.Proofs.Openers
import AnnotatedEnv.Proofs.CommentedModes
import AnnotatedEnv.Proofs.ListedValues
import AnnotatedEnv.Proofs.KeyConstraint
import AnnotatedEnv.Proofs.LineStream
import AnnotatedEnv.Proofs.DigestText
import AnnotatedEnv.Proofs.ChangedLines
import AnnotatedEnv.Proofs.OptionWords
