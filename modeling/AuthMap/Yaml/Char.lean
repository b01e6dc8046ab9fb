/-! The characters that matter to the layout of YAML text. -/

namespace AuthMap.Yaml

def byteOrderMark : Char := '\ufeff'

def isAllowed (c : Char) : Bool :=
  let n := c.toNat
  n == 0x09 || n == 0x0A || n == 0x0D || (0x20 ≤ n && n ≤ 0x7E) || n == 0x85 ||
    (0xA0 ≤ n && n ≤ 0xD7FF) || (0xE000 ≤ n && n ≤ 0xFFFD) || (0x10000 ≤ n && n ≤ 0x10FFFF)

def isBreak (c : Char) : Bool :=
  c = '\n' || c = '\r' || c = '\u0085' || c = '\u2028' || c = '\u2029'

def endsLead : Option Char → Bool
  | none => true
  | some c => c = ' ' || isBreak c

def endsWord : Option Char → Bool
  | none => true
  | some c => c = ' ' || c = '\t' || isBreak c

def endsLine : Option Char → Bool
  | none => true
  | some c => isBreak c

def isBracket (c : Char) : Bool := c = ',' || c = '[' || c = ']' || c = '{' || c = '}'

def isNameChar (c : Char) : Bool := c.isAlphanum || c = '-' || c = '_'

def isAddressChar (c : Char) : Bool :=
  c.isAlphanum || "-;/?:@&=+$,_.!~*'()[]%".toList.contains c

def isHexDigit (c : Char) : Bool :=
  c.isDigit || ('a' ≤ c && c ≤ 'f') || ('A' ≤ c && c ≤ 'F')

def isIndicator (c : Char) : Bool := ",[]\x7b\x7d#&*!|>'\"%@\x60".toList.contains c

end AuthMap.Yaml
