import AuthMap.Yaml.Token
import AuthMap.Yaml.Cursor
import AuthMap.Decimal.Reading

/-! Tokens that name something: anchors and aliases, tags, and directives. -/

namespace AuthMap.Yaml

def anchorName (c : Cursor) : Except Fault (List Char × Cursor) :=
  let c := c.step
  let name := c.run isNameChar
  let c := c.steps name.length
  let follows := match c.peek with
    | none => true
    | some ch => endsWord (some ch) || "?:,]\x7d%@\x60".toList.contains ch
  if name.isEmpty || !follows then .error .malformed else .ok (name, c)

def utf8? (codes : List Nat) : Option (List Char) :=
  let bytes : ByteArray := ⟨(codes.map fun n => UInt8.ofNat n).toArray⟩
  (String.fromUTF8? bytes).map String.toList

def percentBytes : Nat → Cursor → Except Fault (List Nat × Cursor)
  | 0, _ => .error .malformed
  | fuel + 1, c =>
    if c.peek = some '%' then
      let digits := (c.rest.drop 1).take 2
      if digits.length = 2 && digits.all isHexDigit then do
        let (bytes, c) ← percentBytes fuel (c.steps 3)
        pure (((Decimal.natural? 16 digits).getD 0) :: bytes, c)
      else .error .malformed
    else .ok ([], c)

def addressText : Nat → Cursor → Except Fault (List Char × Cursor)
  | 0, _ => .error .malformed
  | fuel + 1, c => do
    let run := c.run fun ch => isAddressChar ch && ch ≠ '%'
    let c := c.steps run.length
    if c.peek = some '%' then
      let (bytes, c) ← percentBytes (c.rest.length + 1) c
      match utf8? bytes with
      | none => .error .malformed
      | some text =>
        let (more, c) ← addressText fuel c
        pure (run ++ text ++ more, c)
    else pure (run, c)

def address (c : Cursor) : Except Fault (List Char × Cursor) := do
  if c.peek.any isAddressChar then addressText (c.rest.length + 1) c else .error .malformed

def handle (c : Cursor) : Except Fault (List Char × Cursor) :=
  if c.peek ≠ some '!' then .error .malformed
  else if c.peekAt 1 = some ' ' then .ok (['!'], c.step)
  else
    -- otherwise a name stands between two marks
    let name := c.step.run isNameChar
    let c' := c.step.steps name.length
    if c'.peek = some '!' then .ok ('!' :: (name ++ ['!']), c'.step)
    else .error .malformed

def tagToken (c : Cursor) : Except Fault (Token × Cursor) := do
  let (t, c) ←
    if c.peekAt 1 = some '<' then
      let (addr, c) ← address (c.steps 2)
      if c.peek = some '>' then pure (Token.tag none addr, c.step) else .error .malformed
    else if endsWord (c.peekAt 1) then pure (Token.tag none ['!'], c.step)
    else
      -- a second mark before the next blank ends a handle
      let named := (c.rest.drop 1).takeWhile fun ch => !endsLead (some ch)
      if named.contains '!' then
        let (h, c) ← handle c
        let (addr, c) ← address c
        pure (Token.tag (some h) addr, c)
      else
        let (addr, c) ← address c.step
        pure (Token.tag (some ['!']) addr, c)
  if endsLead c.peek then pure (t, c) else .error .malformed

def digits (c : Cursor) : Except Fault (Nat × Cursor) :=
  let run := c.run Char.isDigit
  if mostDigits < run.length then .error (.value (.digits run.length))
  else match Decimal.natural? 10 run with
    | some n => .ok (n, c.steps run.length)
    | none => .error .malformed

def directive (c : Cursor) : Except Fault (Token × Cursor) := do
  let c := c.step
  let name := c.run isNameChar
  let c := c.steps name.length
  if name.isEmpty || !endsLead c.peek then .error .malformed
  else
    let (t, c) ←
      if name = "YAML".toList then
        let (major, c) ← digits c.skipSpaces
        if c.peek = some '.' then
          let (_, c) ← digits c.step
          if endsLead c.peek then pure (Token.version major, c) else .error .malformed
        else .error .malformed
      else if name = "TAG".toList then
        let (h, c) ← handle c.skipSpaces
        if c.peek = some ' ' then
          let (addr, c) ← address c.skipSpaces
          if endsLead c.peek then pure (Token.shorthand h addr, c) else .error .malformed
        else .error .malformed
      else pure (Token.reserved, c.skip fun ch => !isBreak ch)
    let c := c.skipComment
    if endsLine c.peek then pure (t, (c.break?.map (·.2)).getD c) else .error .malformed

end AuthMap.Yaml
