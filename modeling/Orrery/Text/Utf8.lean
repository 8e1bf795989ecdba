/-!
# Octets

Text that comes from a tag's escapes or from a program is a sequence of bytes first.  A byte is written
here as the character of that number, so that plain text is its own sequence of `Octets`, and the rules
for either are stated with the same letters.

`Text.encode` gives the octets of characters, in UTF-8.  The way back reads from the left: octets that
belong to no character are gathered into the longest beginning of one, and each such piece is broken.
`Text.decode?` refuses broken pieces, `Text.decodeLossy` puts a replacement character in their place.
-/

namespace Orrery

/-- Bytes, each as the character of that number. -/
abbrev Octets := List Char

namespace Text

/-- The octets of a character. -/
def encodeChar (c : Char) : Octets :=
  let n := c.toNat
  let following (k : Nat) : Char := Char.ofNat (0x80 + k % 64)
  if n < 0x80 then [c]
  else if n < 0x800 then [Char.ofNat (0xC0 + n / 64), following n]
  else if n < 0x10000 then [Char.ofNat (0xE0 + n / 4096), following (n / 64), following n]
  else [Char.ofNat (0xF0 + n / 262144), following (n / 4096), following (n / 64), following n]

/-- The octets of characters. -/
def encode (cs : List Char) : Octets := cs.flatMap encodeChar

/-- How many octets characters have. -/
def octetCount (cs : List Char) : Nat := cs.foldl (fun n c => n + c.utf8Size) 0

/-- A character of which octets are still to come. -/
structure Begun where
  /-- What the octets so far give. -/
  value : Nat
  /-- The least octet that may come next. -/
  low : Nat
  /-- The largest octet that may come next. -/
  high : Nat
  /-- How many are still to come. -/
  left : Nat

/-- What the first octet of a character says: the whole of it, or how it goes on.  Where a shorter form
exists, a surrogate would result or the code space is left, the second octet is confined. -/
def first? (n : Nat) : Option (Char ⊕ Begun) :=
  if n < 0x80 then some (.inl (Char.ofNat n))
  else if n < 0xC2 then none
  else if n < 0xE0 then some (.inr ⟨n - 0xC0, 0x80, 0xBF, 1⟩)
  else if n < 0xF0 then
    some (.inr ⟨n - 0xE0, if n = 0xE0 then 0xA0 else 0x80, if n = 0xED then 0x9F else 0xBF, 2⟩)
  else if n < 0xF5 then
    some (.inr ⟨n - 0xF0, if n = 0xF0 then 0x90 else 0x80, if n = 0xF4 then 0x8F else 0xBF, 3⟩)
  else none

/-- The characters of octets; nothing stands for a broken piece. -/
def pieces (begun : Option Begun) : Octets → List (Option Char)
  | [] => if begun.isSome then [none] else []
  | o :: rest =>
    let n := o.toNat
    let fresh := match first? n with
      | some (.inl c) => some c :: pieces none rest
      | some (.inr b) => pieces (some b) rest
      | none => none :: pieces none rest
    match begun with
    | none => fresh
    | some b =>
      if b.low ≤ n && n ≤ b.high then
        let value := 64 * b.value + (n - 0x80)
        if b.left ≤ 1 then some (Char.ofNat value) :: pieces none rest
        else pieces (some ⟨value, 0x80, 0xBF, b.left - 1⟩) rest
      else none :: fresh

/-- The characters of octets, if no piece is broken. -/
def decode? (os : Octets) : Option (List Char) := (pieces none os).mapM id

/-- The characters of octets, with a replacement for each broken piece. -/
def decodeLossy (os : Octets) : List Char := (pieces none os).map fun c => c.getD '\ufffd'

end Text

end Orrery
