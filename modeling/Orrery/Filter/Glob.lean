import Orrery.Text.Utf8

/-!
# Wildcards

The patterns of scripts: a star stands for any text, a question mark for any octet, and brackets for one
octet out of a set.  A quoted octet stands for itself, so a pattern is a list of octets with a mark.
-/

namespace Orrery

namespace Glob

/-- A pattern: octets, and whether each is quoted. -/
abbrev Pattern := List (Char × Bool)

/-- The named sets of octets. -/
def isOfClass (name : String) (c : Char) : Bool :=
  let isPunct := 0x21 ≤ c.toNat && c.toNat ≤ 0x7E && !c.isAlphanum
  match name with
  | "alpha" => c.isAlpha
  | "digit" => c.isDigit
  | "alnum" => c.isAlphanum
  | "upper" => c.isUpper
  | "lower" => c.isLower
  | "space" => c = ' ' || (0x09 ≤ c.toNat && c.toNat ≤ 0x0D)
  | "blank" => c = ' ' || c = '\t'
  | "punct" => isPunct
  | "print" => 0x20 ≤ c.toNat && c.toNat ≤ 0x7E
  | "graph" => 0x21 ≤ c.toNat && c.toNat ≤ 0x7E
  | "cntrl" => c.toNat < 0x20 || c.toNat = 0x7F
  | "xdigit" => c.isDigit || ('a' ≤ c && c ≤ 'f') || ('A' ≤ c && c ≤ 'F')
  | _ => false

/-- A set of octets as it is written between brackets. -/
inductive Member where
  /-- All octets between two. -/
  | range (first last : Char)
  /-- A named set. -/
  | named (name : String)

/-- Whether an octet belongs to a member. -/
def Member.contains (c : Char) : Member → Bool
  | .range first last => first ≤ c && c ≤ last
  | .named name => isOfClass name c

/-- The members of a set up to its closing bracket, which may come first as a member; what follows. -/
def members? (atStart : Bool) : Nat → Pattern → Option (List Member × Pattern)
  | 0, _ => none
  | _, [] => none
  | fuel + 1, (c, quoted) :: rest =>
    if c = ']' && !quoted && !atStart then some ([], rest)
    else
      let name := (rest.drop 1).takeWhile fun x => x.1.isAlpha
      match c, quoted, rest, rest.drop (1 + name.length) with
      | '[', false, (':', _) :: _, (':', _) :: (']', _) :: behind =>
        (members? false fuel behind).map fun (ms, rest) =>
          (.named (String.ofList (name.map (·.1))) :: ms, rest)
      | _, _, _, _ =>
        match rest with
        | ('-', false) :: (last, q) :: behind =>
          if last = ']' && !q then (members? false fuel rest).map fun (ms, rest) => (.range c c :: ms, rest)
          else (members? false fuel behind).map fun (ms, rest) => (.range c last :: ms, rest)
        | _ => (members? false fuel rest).map fun (ms, rest) => (.range c c :: ms, rest)

/-- A set, from behind its opening bracket: whether it holds what is not a member, its members, and what
follows. -/
def set? (p : Pattern) : Option (Bool × List Member × Pattern) :=
  let (negated, p) := match p with
    | ('!', false) :: p | ('^', false) :: p => (true, p)
    | p => (false, p)
  (members? true (p.length + 1) p).map fun (ms, rest) => (negated, ms, rest)

/-- Whether a pattern stands for a text; every step shortens one of the two. -/
def matchesWith : Nat → Pattern → Octets → Bool
  | 0, _, _ => false
  | fuel + 1, p, text =>
    match p, text with
    | [], text => text.isEmpty
    | ('*', false) :: p, [] => matchesWith fuel p []
    | ('*', false) :: rest, c :: text =>
      matchesWith fuel rest (c :: text) || matchesWith fuel (('*', false) :: rest) text
    | _, [] => false
    | ('?', false) :: p, _ :: text => matchesWith fuel p text
    | ('[', false) :: p, c :: text =>
      match set? p with
      | some (negated, ms, p) => (ms.any (Member.contains c) != negated) && matchesWith fuel p text
      | none => c = '[' && matchesWith fuel p text
    | (x, _) :: p, c :: text => x = c && matchesWith fuel p text

/-- Whether a pattern stands for a text. -/
def isMatch (p : Pattern) (text : Octets) : Bool := matchesWith (p.length + text.length + 1) p text

/-- The text without the shortest or the longest beginning that a pattern stands for. -/
def dropFront (p : Pattern) (longest : Bool) (text : Octets) : Octets :=
  let lengths := List.range (text.length + 1)
  match (if longest then lengths.reverse else lengths).find? fun n => isMatch p (text.take n) with
  | some n => text.drop n
  | none => text

/-- The text without the shortest or the longest end that a pattern stands for. -/
def dropBack (p : Pattern) (longest : Bool) (text : Octets) : Octets :=
  let lengths := List.range (text.length + 1)
  match (if longest then lengths else lengths.reverse).find? fun n => isMatch p (text.drop n) with
  | some n => text.take n
  | none => text

end Glob

end Orrery
