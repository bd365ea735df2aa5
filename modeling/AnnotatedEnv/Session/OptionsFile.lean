/-
Module: AnnotatedEnv.Session.OptionsFile
Purpose: Reading session options from the text of a configuration file.
Main exports: SessionOptions.ofTomlText?
Unknown names are ignored, missing ones have their defaults, and a value of another kind refuses
the file. A record may be written as a table or as the array of its first fields.
-/
import AnnotatedEnv.Session.Options
import AnnotatedEnv.Toml.Reader

namespace AnnotatedEnv

namespace Toml

def toBool? : Toml → Option Bool
  | boolean b => some b
  | _ => none

def toNat? : Toml → Option Nat
  | integer n => if 0 ≤ n then some n.toNat else none
  | _ => none

/-- The fields of a record, `none` for those that are not given. Of an array the first items
count. A date or time is a record with no field of these names. -/
def fields? (names : List String) : Toml → Option (List (Option Toml))
  | table _ _ members => some (names.map fun name => Pairs.find? name members)
  | inline _ members => some (names.map fun name => Pairs.find? name members)
  | array items => some ((List.range names.length).map fun i => items[i]?)
  | tables elements =>
    some ((List.range names.length).map fun i => (elements[i]?).map (.table false false))
  | datetime => some (names.map fun _ => none)
  | _ => none

/-- Read a field that may be missing. -/
def fieldOr {α : Type} (fallback : α) (read : Toml → Option α) : Option Toml → Option α
  | none => some fallback
  | some v => read v

end Toml

def LoadOptions.ofToml? (v : Toml) : Option LoadOptions :=
  match v.fields? ["legacy_overwritten", "cache_capacity"] with
  | some [legacy, capacity] =>
    match Toml.fieldOr false Toml.toBool? legacy, Toml.fieldOr 64 Toml.toNat? capacity with
    | some legacy, some capacity => some ⟨legacy, capacity⟩
    | _, _ => none
  | _ => none

def SessionOptions.ofToml? (v : Toml) : Option SessionOptions :=
  match v.fields? ["load", "verify_before_override", "minimal_patches"] with
  | some [load, verify, minimal] =>
    match Toml.fieldOr {} LoadOptions.ofToml? load, Toml.fieldOr true Toml.toBool? verify,
      Toml.fieldOr false Toml.toBool? minimal with
    | some load, some verify, some minimal => some ⟨load, verify, minimal⟩
    | _, _, _ => none
  | _ => none

def SessionOptions.ofTomlText? (text : String) : Option SessionOptions :=
  (Toml.read? text).bind fun members => SessionOptions.ofToml? (.table false false members)

end AnnotatedEnv
