/-!
# TOML strings

Strings are read by machines that take one character at a time. Each machine
starts behind the opening quotes and stops behind the closing ones.
-/

set_option autoImplicit false

namespace SwiftDecl.Toml

/-- What a machine in state `σ` does with a character: go on after adding to the
content, stop behind the character, stop in front of it, or refuse it. -/
inductive Move (σ : Type) where
  | go (out : List Char) (state : σ)
  | stop (out : List Char)
  | stopBefore (out : List Char)
  | refuse

/-- Runs a machine. The result is the content and what is left of the text.
`finish` says with what content the machine may stop at the end of the text. -/
def scan {σ : Type} (move : σ → Char → Move σ) (finish : σ → Option (List Char)) :
    σ → List Char → Option (List Char × List Char)
  | state, [] => (finish state).map fun out => (out, [])
  | state, c :: rest =>
    match move state c with
    | .refuse => none
    | .stop out => some (out, rest)
    | .stopBefore out => some (out, c :: rest)
    | .go out next => (scan move finish next rest).map fun (content, left) => (out ++ content, left)

def isTextChar (c : Char) : Bool :=
  c == '\t' || (0x20 ≤ c.toNat && c.toNat ≠ 0x7F)

def hexDigit? (c : Char) : Option Nat :=
  if '0' ≤ c ∧ c ≤ '9' then some (c.toNat - '0'.toNat)
  else if 'a' ≤ c ∧ c ≤ 'f' then some (c.toNat - 'a'.toNat + 10)
  else if 'A' ≤ c ∧ c ≤ 'F' then some (c.toNat - 'A'.toNat + 10)
  else none

def shortEscape? (c : Char) : Option Char :=
  match c with
  | 'b' => some '\x08'
  | 't' => some '\t'
  | 'n' => some '\n'
  | 'f' => some '\x0c'
  | 'r' => some '\r'
  | 'e' => some '\x1b'
  | '"' => some '"'
  | '\\' => some '\\'
  | _ => none

def escapeLength? (c : Char) : Option Nat :=
  match c with
  | 'x' => some 2
  | 'u' => some 4
  | 'U' => some 8
  | _ => none

inductive BasicState where
  | plain
  | escaped
  /-- Digits of a code point still to come, and its value so far. -/
  | code (left value : Nat)
  /-- Behind a backslash that ends a line, before or after the line feed. -/
  | gap (ended : Bool)
  /-- Behind a carriage return in such a gap. -/
  | gapReturn
  | carriage
  | quotes (count : Nat)
  deriving DecidableEq, Repr

def scalar? (n : Nat) : Option Char :=
  if n.isValidChar then some (Char.ofNat n) else none

def afterBackslash (c : Char) : Move BasicState :=
  match shortEscape? c with
  | some out => .go [out] .plain
  | none =>
    match escapeLength? c with
    | some digits => .go [] (.code digits 0)
    | none => .refuse

def afterCode (left value : Nat) (c : Char) : Move BasicState :=
  match hexDigit? c with
  | none => .refuse
  | some digit =>
    if left ≤ 1 then
      match scalar? (value * 16 + digit) with
      | some out => .go [out] .plain
      | none => .refuse
    else .go [] (.code (left - 1) (value * 16 + digit))

def basicMove : BasicState → Char → Move BasicState
  | .escaped, c => afterBackslash c
  | .code left value, c => afterCode left value c
  | _, c =>
    if c = '"' then .stop []
    else if c = '\\' then .go [] .escaped
    else if isTextChar c then .go [c] .plain
    else .refuse

def readBasic (text : List Char) : Option (List Char × List Char) :=
  scan basicMove (fun _ => none) .plain text

def longPlain (out : List Char) (c : Char) : Move BasicState :=
  if c = '"' then .go out (.quotes 1)
  else if c = '\\' then .go out .escaped
  else if c = '\n' then .go (out ++ ['\n']) .plain
  else if c = '\r' then .go out .carriage
  else if isTextChar c then .go (out ++ [c]) .plain
  else .refuse

/-- Three quotes close a long string; up to two more belong to its content. -/
def longQuotes (count : Nat) (c : Char) : Move BasicState :=
  if c = '"' then
    if count = 4 then .stop ['"', '"'] else .go [] (.quotes (count + 1))
  else if 3 ≤ count then .stopBefore (List.replicate (count - 3) '"')
  else longPlain (List.replicate count '"') c

def longBasicMove : BasicState → Char → Move BasicState
  | .plain, c => longPlain [] c
  | .escaped, c =>
    if c = ' ' ∨ c = '\t' then .go [] (.gap false)
    else if c = '\n' then .go [] (.gap true)
    else if c = '\r' then .go [] .gapReturn
    else afterBackslash c
  | .code left value, c => afterCode left value c
  | .gap ended, c =>
    if c = ' ' ∨ c = '\t' then .go [] (.gap ended)
    else if c = '\n' then .go [] (.gap true)
    else if c = '\r' then .go [] .gapReturn
    else if ended then longPlain [] c
    else .refuse
  | .gapReturn, c => if c = '\n' then .go [] (.gap true) else .refuse
  | .carriage, c => if c = '\n' then .go ['\r', '\n'] .plain else .refuse
  | .quotes count, c => longQuotes count c

def longFinish : BasicState → Option (List Char)
  | .quotes count => if 3 ≤ count then some (List.replicate (count - 3) '"') else none
  | _ => none

def dropFirstLineFeed : List Char → List Char
  | '\n' :: rest => rest
  | '\r' :: '\n' :: rest => rest
  | text => text

def readLongBasic (text : List Char) : Option (List Char × List Char) :=
  scan longBasicMove longFinish .plain (dropFirstLineFeed text)

def rawMove (_ : Unit) (c : Char) : Move Unit :=
  if c = '\'' then .stop []
  else if isTextChar c then .go [c] ()
  else .refuse

def readRaw (text : List Char) : Option (List Char × List Char) :=
  scan rawMove (fun _ => none) () text

inductive RawState where
  | plain
  | carriage
  | quotes (count : Nat)
  deriving DecidableEq, Repr

def longRawPlain (out : List Char) (c : Char) : Move RawState :=
  if c = '\'' then .go out (.quotes 1)
  else if c = '\n' then .go (out ++ ['\n']) .plain
  else if c = '\r' then .go out .carriage
  else if isTextChar c then .go (out ++ [c]) .plain
  else .refuse

def longRawMove : RawState → Char → Move RawState
  | .plain, c => longRawPlain [] c
  | .carriage, c => if c = '\n' then .go ['\r', '\n'] .plain else .refuse
  | .quotes count, c =>
    if c = '\'' then
      if count = 4 then .stop ['\'', '\''] else .go [] (.quotes (count + 1))
    else if 3 ≤ count then .stopBefore (List.replicate (count - 3) '\'')
    else longRawPlain (List.replicate count '\'') c

def longRawFinish : RawState → Option (List Char)
  | .quotes count => if 3 ≤ count then some (List.replicate (count - 3) '\'') else none
  | _ => none

def readLongRaw (text : List Char) : Option (List Char × List Char) :=
  scan longRawMove longRawFinish .plain (dropFirstLineFeed text)

end SwiftDecl.Toml
