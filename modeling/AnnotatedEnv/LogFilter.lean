/-
Module: AnnotatedEnv.LogFilter
Purpose: The filter that selects the log events to show, and its reading from a text.
Main exports: LogRule, LogRule.fits, LogRule.ofText?, LogFilter, LogFilter.ofText?, LogFilter.admits
A filter is a list of rules separated by commas. A rule is a level for all sources, or
`source[span{field}]=level`, of which every part may be missing. The most specific rule decides.
-/
import AnnotatedEnv.Event
import AnnotatedEnv.Text.Blank
import AnnotatedEnv.Text.Word

namespace AnnotatedEnv

/-! ### Levels -/

/-- A number of decimal digits, with or without a plus sign. -/
def wholeNumber? (cs : List Char) : Option Nat :=
  let digits := (Text.dropPrefix? ['+'] cs).getD cs
  if digits.isEmpty || !digits.all Char.isDigit then none
  else some (digits.foldl (fun n c => n * 10 + (c.toNat - 48)) 0)

/-- What a level word or its number stands for: the last level that is shown, or none. The case of
letters does not count. -/
def Level.limitOfText? (text : String) : Option (Option Level) :=
  match wholeNumber? text.toList, text.toLower with
  | some 0, _ => some none
  | some 1, _ => some (some .error)
  | some 2, _ => some (some .warn)
  | some 3, _ => some (some .info)
  | some 4, _ => some (some .debug)
  | some 5, _ => some (some .trace)
  | _, "off" => some none
  | _, "error" => some (some .error)
  | _, "warn" => some (some .warn)
  | _, "info" => some (some .info)
  | _, "debug" => some (some .debug)
  | _, "trace" => some (some .trace)
  | _, _ => none

/-! ### Rules -/

/-- One rule of a filter, about the events that all its parts fit. -/
structure LogRule where
  /-- The source of the event has this beginning. -/
  beginning : Option String := none
  /-- The event has a field of this name. -/
  field : Option String := none
  /-- The event lies in a span. The program opens none, so no event does. -/
  inSpan : Bool := false
  /-- The last level that is shown, if any is. -/
  limit : Option Level := some .trace
  deriving DecidableEq, Repr

namespace LogRule

/-- Whether the rule speaks of an event. -/
def fits (rule : LogRule) (e : Event) : Bool :=
  !rule.inSpan && rule.beginning.all (·.isPrefixOf e.source.label)
    && rule.field.all (e.fieldNames.contains ·)

/-- Whether events of a level are shown where the rule decides. -/
def shows (rule : LogRule) (level : Level) : Bool :=
  match rule.limit with
  | some limit => level.rank ≤ limit.rank
  | none => false

/-- How much the beginning of the source narrows the rule. -/
def reach (rule : LogRule) : Nat :=
  match rule.beginning with
  | some text => text.utf8ByteSize + 1
  | none => 0

/-- Whether of two rules that fit an event the second one decides: the longer beginning, then the
one with a field, then the field name that sorts last, then the later rule. -/
def yieldsTo (rule other : LogRule) : Bool :=
  if rule.reach = other.reach then
    match rule.field, other.field with
    | none, _ => true
    | some _, none => false
    | some a, some b => !(b < a)
  else rule.reach < other.reach

/-! ### Reading rules -/

/-- Characters that the name of a source may begin with. -/
def startsName (c : Char) : Bool := c = '-' || c = ':' || Text.isWord c

/-- Read what stands between brackets, from behind the opening one: the name of a span, then a field
in braces, which may be bound to a value. A value counts for spans only. -/
def bracketsOfText? (rule : LogRule) (cs : List Char) : Option (LogRule × List Char) :=
  let name := cs.takeWhile fun c => c ≠ ']' && c ≠ '\x7b'
  match cs.drop name.length with
  | ']' :: rest => some ({ rule with inSpan := true }, rest)
  | _ :: rest =>
    let field := rest.takeWhile (· ≠ '\x7d')
    match rest.drop field.length with
    | '\x7d' :: ']' :: rest =>
      if field.isEmpty then none
      else
        let inSpan := rule.inSpan || !name.isEmpty || field.contains '='
        some ({ rule with field := String.ofList (field.takeWhile (· ≠ '=')), inSpan }, rest)
    | _ => none
  | [] => none

/-- Read the level at the end of a rule. Without a level everything is shown. -/
def limitOfText? (rule : LogRule) (padded : Bool) : List Char → Option LogRule
  | [] => some rule
  | ['='] => if padded then none else some rule
  | '=' :: level =>
    if padded then none
    else (Level.limitOfText? (String.ofList level)).map fun limit => { rule with limit }
  | _ => none

/-- Read a rule. Blanks around it leave it readable if it has no level at its end, but one that
starts with a blank fits no event, nor does a name that ends in one. -/
def ofText? (text : String) : Option LogRule :=
  let body := Text.trim text.toList
  let padded := body.length ≠ text.length
  let blankFirst := text.toList.head?.any Text.isBlank
  let name := body.takeWhile fun c => c ≠ '=' && c ≠ '['
  let named : LogRule := { beginning := String.ofList name, inSpan := blankFirst }
  match body, body.drop name.length with
  | '[' :: rest, _ =>
    (bracketsOfText? { inSpan := blankFirst } rest).bind fun (rule, rest) =>
      rule.limitOfText? padded rest
  | c :: _, rest =>
    if !startsName c then none
    else
      match rest with
      | [] =>
        match Level.limitOfText? text with
        | some limit => some { limit }
        | none => some { beginning := text }
      | '[' :: rest =>
        (bracketsOfText? named rest).bind fun (rule, rest) => rule.limitOfText? padded rest
      | rest => named.limitOfText? padded rest
  | [], _ => none

end LogRule

/-! ### Filters -/

/-- The rules of a filter. An event that no rule fits is not shown. -/
structure LogFilter where
  rules : List LogRule
  deriving DecidableEq, Repr

namespace LogFilter

/-- Without a choice the program shows its own events down to `info`. -/
def standard : LogFilter := ⟨[{ beginning := "envview", limit := some .info }]⟩

/-- A filter from rules separated by commas; one unreadable rule spoils the filter. -/
def ofText? (text : String) : Option LogFilter :=
  let rules := (Text.pieces (· = ',') text.toList).filter (!·.isEmpty)
  (rules.mapM fun rule => LogRule.ofText? (String.ofList rule)).map (⟨·⟩)

/-- The rule that decides on an event. -/
def ruleFor? (filter : LogFilter) (e : Event) : Option LogRule :=
  (filter.rules.filter (·.fits e)).foldl
    (fun best rule =>
      match best with
      | some b => if b.yieldsTo rule then some rule else some b
      | none => some rule)
    none

def admits (filter : LogFilter) (e : Event) : Bool :=
  (filter.ruleFor? e).any (·.shows e.level)

end LogFilter

end AnnotatedEnv
