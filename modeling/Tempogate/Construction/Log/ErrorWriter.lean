/-
This file defines how the pretty log format makes control characters visible and writes a chain of
errors.
-/

import Mathlib.Data.List.DropRight
import Tempogate.Foundation.Utf8

namespace Tempogate.Log

open Foundation

/-- A Go string is a list of bytes. -/
abbrev Text : Type := List UInt8

def text (value : String) : Text := Utf8.encode value.toList

def digits : Text := text "0123456789abcdef"

def hexDigit (value : Nat) : UInt8 := digits.getD (value % 16) 0

/-- The value is below 0x100. -/
def appendHex (value : Nat) : Text := [hexDigit (value / 16), hexDigit value]

def isControl (rune : Char) (newline : Bool) : Bool :=
  if rune = '\t' || rune = '\n' && newline then false
  else if rune.toNat < 0x20 || rune.toNat = 0x7f then true
  else 0x80 ≤ rune.toNat && rune.toNat ≤ 0x9f

def escapeControl (rune : Char) : Text :=
  if rune = '\n' then text "\\n"
  else if rune = '\r' then text "\\r"
  else text "\\x" ++ appendHex rune.toNat

/-- The bytes of a rune are skipped behind its first one. -/
def escapeFrom (newline : Bool) : Nat → Text → Text
  | _, [] => []
  | skip + 1, _ :: rest => escapeFrom newline skip rest
  | 0, byte :: rest =>
    match Utf8.decodeRune (byte :: rest) with
    | none => text "\\x" ++ appendHex byte.toNat ++ escapeFrom newline 0 rest
    | some rune =>
      (if isControl rune newline then escapeControl rune else String.utf8EncodeChar rune) ++
        escapeFrom newline (rune.utf8Size - 1) rest

/-- Controls other than a tab, and a newline where it is not kept, and bytes that are not UTF-8 are
made visible. -/
def appendEscaped (value : Text) (newline : Bool) : Text := escapeFrom newline 0 value

def lineEnding : Text := text "\n"

def blockIndent : Text := text "  "

def causeMarker : Text := text "↳ "

def maxErrorNodes : Int := 64

/-- The methods of an error may answer differently each time they are called, so they read a count
of the calls so far. A method that panics answers too, since the writer recovers. -/
structure Errors (Err : Type) where
  errorText : Nat → Err → Text
  /-- These are the wrapped errors that are not nil. -/
  causesOf : Nat → Err → List Err
  isComparable : Err → Bool
  /-- This is equality of comparable errors, which an error that holds a NaN does not have with
  itself. -/
  equal : Err → Err → Bool

/-- A link is an error in a chain and its text. -/
structure Link (Err : Type) where
  err : Err
  text : Text

/-- A visit to an error is recorded with the chain above it, the error itself first. -/
inductive Trace (Err : Type)
  | visited (chain : List Err)
  | truncated
  | cycle

/-- The path has its newest error first, and the newest links come last. The last two fields are
not part of the source. They count the calls of error methods and record the visits, the newest
first. -/
structure ErrorWriter (Err : Type) where
  buf : Text
  base : Text
  budget : Int
  path : List Err
  links : List (Link Err)
  calls : Nat
  trace : List (Trace Err)

section Texts

def trimRight (cutset value : Text) : Text := value.rdropWhile (· ∈ cutset)

def trimLeft (cutset value : Text) : Text := value.dropWhile (· ∈ cutset)

/-- The separator before the text of a cause is white space, then one mark. -/
def trimSeparator (value : Text) : Text :=
  let trimmed := trimRight (text " \t\n") value
  match trimmed.getLast? with
  | some last => if last ∈ text ":;," then trimmed.dropLast else trimmed
  | none => trimmed

/-- The first occurrence is taken out when there is one. -/
def removeFirst (old : Text) : Text → Option Text
  | [] => none
  | byte :: rest =>
    if old.isPrefixOf (byte :: rest) then some ((byte :: rest).drop old.length)
    else (removeFirst old rest).map (byte :: ·)

variable {Err : Type}

/-- All causes are shown, and stay on the stack of links, or some of them in a list of their own. -/
inductive Shown (Err : Type)
  | all
  | unquoted (links : List (Link Err))

def Shown.links (causes : List (Link Err)) : Shown Err → List (Link Err)
  | .all => causes
  | .unquoted links => links

def quote (state : Text × List (Link Err)) (cause : Link Err) : Text × List (Link Err) :=
  match if cause.text = [] then none else removeFirst cause.text state.1 with
  | some rest => (rest, state.2)
  | none => (state.1, state.2 ++ [cause])

/-- The usual wrapper ends with the text of its cause. The text of a join is only that of its
causes, and any other text stays whole. -/
def splitOwn (message : Text) (causes : List (Link Err)) : Text × Shown Err :=
  let quoted := causes.foldl quote (message, [])
  let general : Text × Shown Err :=
    if causes ≠ [] ∧ trimLeft (text " \t\n:;,") quoted.1 = [] then ([], .all)
    else (message, .unquoted quoted.2)
  match causes with
  | [cause] =>
    if cause.text ≠ [] ∧ cause.text <:+ message then
      (trimSeparator (message.take (message.length - cause.text.length)), .all)
    else general
  | _ => general

end Texts

section Lines

variable (base : Text)

variable (level : Nat)

def newline (marker : Text) : Text :=
  lineEnding ++ base ++ (List.replicate level blockIndent).flatten ++ marker

def marker (what : String) : Text :=
  newline base (max level 1) causeMarker ++ text "… (" ++ text what ++ text ")"

variable (own : Text)

/-- A message of several lines continues under its first line. -/
def ownLines : Text :=
  (newline base (level + 1) []).intercalate
    ((own.splitOn '\n'.toUInt8).map fun line => appendEscaped line true)

/-- The first level continues the current line. -/
def ownText : Text :=
  if own = [] then []
  else (if level = 0 then text " " else newline base level causeMarker) ++ ownLines base level own

/-- An error without text of its own puts its causes at its level. -/
def nextLevel (parts : Nat) : Nat :=
  if own ≠ [] then level + 1 else if level = 0 ∧ parts > 1 then 1 else level

end Lines

namespace ErrorWriter

variable {Err : Type}

def new (base : Text) (calls : Nat) : ErrorWriter Err :=
  ⟨[], base, maxErrorNodes, [], [], calls, []⟩

def append (writer : ErrorWriter Err) (written : Text) : ErrorWriter Err :=
  { writer with buf := writer.buf ++ written }

def note (writer : ErrorWriter Err) (event : Trace Err) : ErrorWriter Err :=
  { writer with trace := event :: writer.trace }

variable (errors : Errors Err)

/-- A cause on the path down to the error is left out and counted. -/
def addCause (state : Nat × ErrorWriter Err) (cause : Err) : Nat × ErrorWriter Err :=
  if errors.isComparable cause && state.2.path.any (errors.equal cause) then
    (state.1 + 1, state.2)
  else (state.1, { state.2 with
    links := state.2.links ++ [⟨cause, errors.errorText state.2.calls cause⟩]
    calls := state.2.calls + 1 })

def addCauses (writer : ErrorWriter Err) (err : Err) : Nat × ErrorWriter Err :=
  (errors.causesOf writer.calls err).foldl (addCause errors)
    (0, { writer with calls := writer.calls + 1 })

/-- The causes on the stack are read from it one by one while the calls below grow it. -/
def eachCause (visit : ErrorWriter Err → Link Err → Option (ErrorWriter Err)) (start count : Nat)
    (shown : Shown Err) (writer : ErrorWriter Err) : Option (ErrorWriter Err) :=
  match shown with
  | .all => (List.range count).foldlM (fun writer index =>
    (writer.links[start + index]?).bind (visit writer)) writer
  | .unquoted links => links.foldlM visit writer

def visit (writer : ErrorWriter Err) (chain : List Err) : ErrorWriter Err :=
  { writer.note (.visited chain) with budget := writer.budget - 1 }

/-- A comparable error is on the path while its causes are written. -/
def enter (writer : ErrorWriter Err) (err : Err) : ErrorWriter Err :=
  if errors.isComparable err then { writer with path := err :: writer.path } else writer

/-- The causes leave the stack before the mark of the causes left out is written, and the error
leaves the path behind it. -/
def leave (writer : ErrorWriter Err) (err : Err) (start cycles level : Nat) : ErrorWriter Err :=
  let cut := { writer with links := writer.links.take start }
  let marked :=
    if cycles > 0 then (cut.append (marker cut.base level "cycle")).note .cycle else cut
  if errors.isComparable err then { marked with path := marked.path.tail } else marked

/-- A call has an answer when it returns before its fuel runs out. The errors above are only
recorded. -/
def write : Nat → ErrorWriter Err → List Err → Link Err → Nat → Option (ErrorWriter Err)
  | 0, _, _, _, _ => none
  | fuel + 1, writer, above, link, level =>
    if writer.budget ≤ 0 then
      if writer.budget = 0 then
        some { (writer.append (marker writer.base level "truncated")).note .truncated with
          budget := writer.budget - 1 }
      else some writer
    else
      let start := writer.links.length
      let found := addCauses errors (writer.visit (link.err :: above)) link.err
      let causes := found.2.links.drop start
      let split := splitOwn link.text causes
      let next := nextLevel level split.1 ((split.2.links causes).length + found.1)
      let entered := enter errors (found.2.append (ownText writer.base level split.1)) link.err
      (eachCause (fun writer cause => write fuel writer (link.err :: above) cause next) start
          causes.length split.2 entered).map
        fun after => leave errors after link.err start found.1 next

end ErrorWriter

/-- An error field is one error or a list of errors in which some may be nil. -/
inductive ErrorField (Err : Type)
  | one (err : Err)
  | list (errs : List (Option Err))

section Fields

open ErrorWriter

variable {Err : Type} (errors : Errors Err) (fuel : Nat)

variable (writer : ErrorWriter Err)

/-- The text of the error is read when its chain begins. -/
def writeTop (err : Err) : Option (ErrorWriter Err) :=
  write errors fuel { writer with calls := writer.calls + 1 } []
    ⟨err, errors.errorText writer.calls err⟩ 0

def decimal (value : Nat) : Text := text (toString value)

def writeItem (item : Option Err × Nat) : Option (ErrorWriter Err) :=
  match item.1 with
  | none => some writer
  | some err => writeTop errors fuel
      (writer.append (lineEnding ++ writer.base ++ text "[" ++ decimal item.2 ++ text "]")) err

/-- The errors of a list share one writer. -/
def writeField (calls : Nat) : ErrorField Err → Option (ErrorWriter Err)
  | .one err => writeTop errors fuel (.new blockIndent calls) err
  | .list errs =>
    errs.zipIdx.foldlM (writeItem errors fuel) (.new (blockIndent ++ blockIndent) calls)

end Fields

end Tempogate.Log
