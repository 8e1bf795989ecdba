import Orrery.Filter.Glob
import Orrery.Filter.Utility

/-!
# Translating octets

`tr` replaces, deletes or squeezes octets of one set.  A set is written as octets, escapes, ranges and
named classes, and its order counts: an octet of the first set is replaced by the one at the same place
of the second, which is as long as need be because its last octet goes on.
-/

namespace Orrery

namespace Utility

/-- Part of a set. -/
inductive SetPart where
  /-- An octet. -/
  | octet (c : Char)
  /-- A named class. -/
  | named (name : String)

/-- All octets. -/
def allOctets : Octets := (List.range 256).map Char.ofNat

/-- The octets of a part. -/
def SetPart.octets : SetPart → Octets
  | .octet c => [c]
  | .named name => allOctets.filter (Glob.isOfClass name)

/-- The octets of a set.  Every part takes an octet, so `fuel` need not exceed the length. -/
def setOctets : Nat → List Char → List SetPart
  | _, [] => []
  | 0, _ => []
  | fuel + 1, cs =>
    let name := (cs.drop 2).takeWhile Char.isAlpha
    match cs, cs.drop (2 + name.length) with
    | '[' :: ':' :: _, ':' :: ']' :: rest => .named (String.ofList name) :: setOctets fuel rest
    | cs, _ =>
      let single (cs : List Char) : Char × List Char :=
        match cs with
        | '\\' :: rest =>
          match Format.escape .command rest with
          | (['\\'], c :: rest) => (c, rest)
          | (o :: _, rest) => (o, rest)
          | ([], rest) => ('\\', rest)
        | c :: rest => (c, rest)
        | [] => ('\x00', [])
      let (first, rest) := match cs with
        | '\\' :: '\\' :: rest => ('\\', rest)
        | cs => single cs
      match rest with
      | '-' :: c :: more =>
        let (last, rest) := match c :: more with
          | '\\' :: '\\' :: rest => ('\\', rest)
          | cs => single cs
        let range := (List.range (last.toNat + 1 - first.toNat)).map fun i => SetPart.octet (Char.ofNat (first.toNat + i))
        range ++ setOctets fuel rest
      | rest => .octet first :: setOctets fuel rest

/-- The octets of a set, in order. -/
def setOf (cs : List Char) : Octets := (setOctets cs.length cs).flatMap SetPart.octets

/-- One octet for each run of the same, if it is in a set. -/
def squeezed (set : Octets) : Octets → Octets
  | a :: b :: rest =>
    if a = b && set.contains a then squeezed set (b :: rest) else a :: squeezed set (b :: rest)
  | os => os

/-- The octet that takes the place of another. -/
def replaced (source target : Octets) (c : Char) : Char :=
  match source.reverse.idxOf? c with
  | some i => target.getD (source.length - 1 - i) (target.getLastD c)
  | none => c

/-- Replace, delete or squeeze octets. -/
def tr : Program := fun s =>
  s.parsed "dsctC" "" 1 fun os sets =>
    let first := setOf (sets.headD [])
    let second := setOf ((sets.drop 1).headD [])
    let isComplement := isGiven os 'c' || isGiven os 'C'
    let first := if isComplement then allOctets.filter fun c => !first.contains c else first
    let extra (n : Nat) : Outcome := s.misuse 1 ("extra operand " ++ quoted (sets.getD n []))
    let deleted := s.input.filter fun c => !first.contains c
    match sets.length, isGiven os 'd', isGiven os 's' with
    | 0, _, _ => s.misuse 1 "missing operand"
    | 1, true, false => printed deleted true
    | 1, false, true => printed (squeezed first s.input) true
    | 2, true, true => printed (squeezed second deleted) true
    | 2, true, false =>
      s.misuse 1 ("extra operand " ++ quoted (sets.getD 1 [])
        ++ "\nOnly one string may be given when deleting without squeezing repeats.")
    | 1, true, true =>
      s.misuse 1 ("missing operand after " ++ quoted (sets.getD 0 [])
        ++ "\nTwo strings must be given when both deleting and squeezing repeats.")
    | 1, false, false =>
      s.misuse 1 ("missing operand after " ++ quoted (sets.getD 0 [])
        ++ "\nTwo strings must be given when translating.")
    | 2, false, squeeze =>
      if second.isEmpty then s.fail 1 "when not truncating set1, string2 must be non-empty"
      else
        let source := if isGiven os 't' then first.take second.length else first
        let translated := s.input.map (replaced source second)
        printed (if squeeze then squeezed second translated else translated) true
    | _, _, _ => extra 2

end Utility

end Orrery
