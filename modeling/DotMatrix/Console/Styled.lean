/-! # Styled text

Control sequences set pieces of a text off on a terminal. A sequence begins with an escape, and the
character behind that tells its form. Plain text is what is left without the sequences and without
the control characters that are no blanks.
-/
namespace DotMatrix.Styled

def setOff (text : String) : String := "\x1b[1m" ++ text ++ "\x1b[0m"

inductive Mode where
  | text
  /-- A sequence whose form is not known yet. -/
  | escape
  /-- A short sequence that goes on. -/
  | intermediate
  /-- A sequence with numbers, up to a letter. -/
  | control
  /-- A command to the system, up to a bell. -/
  | command
  /-- A device string: its beginning, its numbers, and what goes on behind them. -/
  | deviceStart | deviceParameter | deviceIntermediate
  /-- The body of a string that is not shown. -/
  | string
  deriving DecidableEq, Repr

/-- Control characters that count as text. -/
def isBlank (c : Char) : Bool := ['\t', '\n', '\x0c', '\r'].contains c

namespace Mode

/-- Blanks are shown although a sequence is not over. -/
def showsBlanks : Mode → Bool
  | .text | .escape | .intermediate | .control => true
  | _ => false

/-- The mode behind a character of ASCII that is no control character or is the last one. -/
def behindAscii (mode : Mode) (c : Char) : Mode :=
  match mode with
  | .text | .command | .string => mode
  | .escape =>
    if c = '[' then .control
    else if c = ']' then .command
    else if c = 'P' then .deviceStart
    else if ['X', '^', '_'].contains c then .string
    else if c < '0' then .intermediate
    else if c ≤ '~' then .text
    else mode
  | .intermediate => if '0' ≤ c ∧ c ≤ '~' then .text else mode
  | .control => if '@' ≤ c ∧ c ≤ '~' then .text else mode
  | .deviceStart =>
    if c < '0' then .deviceIntermediate
    else if c < '@' then .deviceParameter
    else if c ≤ '~' then .string
    else mode
  | .deviceParameter =>
    if c < '0' then .deviceIntermediate
    else if '<' ≤ c ∧ c ≤ '~' then .string
    else mode
  | .deviceIntermediate => if '0' ≤ c ∧ c ≤ '~' then .string else mode

/-- The mode behind a character beyond ASCII. A string ends within one that has the byte `9c`. -/
def behindOther (mode : Mode) (c : Char) : Mode :=
  if mode = .string ∧ c.toString.toUTF8.data.contains 0x9c then .text else mode

def next (mode : Mode) (c : Char) : Mode × Bool :=
  if c = '\x1b' then (.escape, false)
  else if c = '\x18' ∨ c = '\x1a' then (.text, false)
  else if c < ' ' then
    (if mode = .command ∧ c = '\x07' then .text else mode, mode.showsBlanks && isBlank c)
  else if c ≤ '\x7f' then (mode.behindAscii c, mode == .text && c != '\x7f')
  else (mode.behindOther c, mode == .text)

end Mode

/-- The plain text of characters on from a mode. Behind a character that is shown, all that would be
shown as text is shown, also in a sequence that a blank has interrupted. -/
def plainFrom (mode : Mode) (shows : Bool) : List Char → List Char
  | [] => []
  | c :: rest =>
    if shows && (Mode.text.next c).2 then
      c :: plainFrom (if '\x7f' < c then .text else mode) true rest
    else
      let (mode, shown) := mode.next c
      if shown then c :: plainFrom mode true rest else plainFrom mode false rest

def plain (text : String) : String := String.ofList (plainFrom .text false text.toList)

end DotMatrix.Styled
