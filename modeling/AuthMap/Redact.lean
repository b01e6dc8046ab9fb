import AuthMap.Text.Blank
import AuthMap.Text.Replace

/-!
Messages without their secrets. Credentials before the host of an address go, and so does the
value after the name of a secret and a separator. What is left is cut to a limit.
-/

namespace AuthMap

namespace Redact

def mark : List Char := "<REDACTED>".toList

/-! ### Credentials in addresses -/

def isUserInfo (c : Char) : Bool := c ≠ '@' && c ≠ '/' && !Text.isBlank c

def hasInnerColon (cs : List Char) : Bool := cs.dropLast.tail.contains ':'

def credentials? : List Char → Option (Nat × List Char)
  | ':' :: '/' :: '/' :: cs =>
    let info := cs.takeWhile isUserInfo
    if hasInnerColon info && (cs.drop info.length).head? = some '@' then
      some (info.length + 4, "://".toList ++ mark ++ ['@'])
    else none
  | _ => none

/-! ### Named secrets -/

def secretNames : List (List Char) :=
  ["password".toList, "secret_key".toList, "access_key".toList, "token".toList,
    "api_key".toList, "authorization".toList, "credential".toList]

def isLetter (small c : Char) : Bool :=
  c.toLower = small || (small = 'i' && (c = '\u0130' || c = '\u0131')) ||
    (small = 's' && c = '\u017F') || (small = 'k' && c = '\u212A')

def afterName : List Char → List Char → Option (List Char)
  | [], cs => some cs
  | k :: ks, c :: cs => if isLetter k c then afterName ks cs else none
  | _ :: _, [] => none

def afterValue (cs : List Char) : Option (List Char) :=
  match cs.dropWhile Text.isBlank with
  | c :: cs =>
    if c = '=' || c = ':' then
      match cs.dropWhile Text.isBlank with
      | [] => none
      | cs => some (cs.dropWhile fun c => !Text.isBlank c)
    else none
  | [] => none

def withoutValue (found : List Char) : List Char :=
  -- a colon before the first equals sign cuts the text already
  if found.contains '=' then
    (found.takeWhile fun c => c ≠ '=' && c ≠ ':') ++ '=' :: mark
  else (found.takeWhile (· ≠ ':')) ++ ':' :: ' ' :: mark

def secret? (cs : List Char) : Option (Nat × List Char) :=
  match (secretNames.findSome? fun name => afterName name cs).bind afterValue with
  | some rest =>
    let length := cs.length - rest.length
    some (length, withoutValue (cs.take length))
  | none => none

/-- As much of a text as a limit allows; a negative limit counts from the end. -/
def clip (most : Int) (cs : List Char) : List Char :=
  if 0 ≤ most then cs.take most.toNat else cs.take (cs.length - (-most).toNat)

def sanitizeChars (most : Int) (cs : List Char) : List Char :=
  clip most (Text.replaceFrom secret? 0 (Text.replaceFrom credentials? 0 cs))

end Redact

def messageLimit : Int := 500

def sanitize (most : Int) (message : String) : String :=
  String.ofList (Redact.sanitizeChars most message.toList)

end AuthMap
