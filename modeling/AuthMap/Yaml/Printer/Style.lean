import AuthMap.Yaml.Tag

/-! How a text is written as a scalar: plain where it reads back as it stands, else in single
quotes, and in double quotes where it needs escapes. -/

namespace AuthMap.Yaml

inductive Style where
  | plain
  | single
  | double
  deriving DecidableEq, Repr

namespace Style

/-- Blanks that set a mark apart; the end of the text does so too. -/
def isSeparating (c : Char) : Bool :=
  c = '\x00' || c = ' ' || c = '\t' || c = '\r' || c = '\n' || c = '\u0085' || c = '\u2028' ||
    c = '\u2029'

def separates : Option Char → Bool
  | none => true
  | some c => isSeparating c

/-- Characters that no quotes but double ones can hold. -/
def isSpecial (c : Char) : Bool := !(c = '\n' || (0x20 ≤ c.toNat && c.toNat ≤ 0x7E))

def opensOther (c : Char) : Bool := "#,[]\x7b\x7d&*!|>'\"%@\x60".toList.contains c

/-- Marks that mean something else before a blank. -/
def isMark (c : Char) : Bool := c = '?' || c = ':' || c = '-'

def beginsOther : List Char → Bool
  | '-' :: '-' :: '-' :: _ => true
  | '.' :: '.' :: '.' :: _ => true
  | c :: cs => opensOther c || (isMark c && separates cs.head?)
  | [] => true

def hasMark : List Char → Bool
  | [] => false
  | c :: cs =>
    (c = ':' && separates cs.head?) || (isSeparating c && cs.head? = some '#') || hasMark cs

def hasRagged : List Char → Bool
  | ' ' :: '\n' :: _ => true
  | '\n' :: ' ' :: _ => true
  | _ :: cs => hasRagged cs
  | [] => false

def isPlain (cs : List Char) : Bool :=
  Tag.ofChars cs = .text && !beginsOther cs && !hasMark cs && !cs.any isSpecial &&
    !cs.contains '\n' && cs.head? ≠ some ' ' && cs.getLast? ≠ some ' '

def isSingle (cs : List Char) : Bool := !cs.any isSpecial && !hasRagged cs

def of (cs : List Char) : Style :=
  if isPlain cs then .plain else if isSingle cs then .single else .double

end Style

end AuthMap.Yaml
