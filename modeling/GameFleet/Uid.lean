/-!
# Universally unique identifiers

A `Uid` is a number of 128 bits. It is written as 32 hexadecimal digits in groups of
8, 4, 4, 4 and 12 with hyphens between them, in lower case, and read in either case
also without the hyphens, and with them in braces or after `urn:uuid:`.
-/

namespace GameFleet

structure Uid where
  bits : BitVec 128
  deriving DecidableEq, Repr

namespace Uid

/-- The value of a hexadecimal digit. -/
def digitValue? (c : Char) : Option Nat :=
  if '0' ≤ c ∧ c ≤ '9' then some (c.toNat - '0'.toNat)
  else if 'a' ≤ c ∧ c ≤ 'f' then some (c.toNat - 'a'.toNat + 10)
  else if 'A' ≤ c ∧ c ≤ 'F' then some (c.toNat - 'A'.toNat + 10)
  else none

/-- The identifier with these digits, if there are 32 of them. -/
def ofDigits? (cs : List Char) : Option Uid :=
  if cs.length = 32 then
    (cs.mapM digitValue?).map fun ds => ⟨BitVec.ofNat 128 (ds.foldl (fun n d => n * 16 + d) 0)⟩
  else none

/-- The digits of a text with hyphens in their places. -/
def withoutHyphens? (cs : List Char) : Option (List Char) :=
  if cs.length = 36 ∧ [8, 13, 18, 23].all fun i => cs[i]? = some '-' then
    some (cs.take 8 ++ (cs.drop 9).take 4 ++ (cs.drop 14).take 4 ++ (cs.drop 19).take 4 ++
      cs.drop 24)
  else none

/-- What a name has in front of an identifier. -/
def urn : List Char := ['u', 'r', 'n', ':', 'u', 'u', 'i', 'd', ':']

/-- The identifier that a text writes. -/
def ofText? (s : String) : Option Uid :=
  let hyphenated (cs : List Char) : Option Uid := (withoutHyphens? cs).bind ofDigits?
  match s.toList with
  | '\x7b' :: cs =>
    if cs.getLast? = some '\x7d' then hyphenated cs.dropLast else none
  | cs =>
    if (cs.take urn.length).map Char.toLower = urn then hyphenated (cs.drop urn.length)
    else if cs.length = 32 then ofDigits? cs
    else hyphenated cs

/-- The digits of the identifier, the first one first. -/
def digits (u : Uid) : List Char :=
  (List.range 32).map fun i => Nat.digitChar (u.bits.toNat / Nat.pow 16 (31 - i) % 16)

def toText (u : Uid) : String :=
  let ds := u.digits
  String.ofList (ds.take 8 ++ '-' :: (ds.drop 8).take 4 ++ '-' :: (ds.drop 12).take 4 ++
    '-' :: (ds.drop 16).take 4 ++ '-' :: ds.drop 20)

example : (ofText? "AAAAAAAA-BBBB-4ccc-8ddd-eeeeeeeeeeee").map toText =
    some "aaaaaaaa-bbbb-4ccc-8ddd-eeeeeeeeeeee" := by decide +kernel

end Uid

end GameFleet
