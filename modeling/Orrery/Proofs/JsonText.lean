import Orrery.Value.Printer
import Orrery.Value.Reader
import Mathlib.Data.List.Basic

/-!
# Text that was printed can be read

The two printers of values and the one reader of text were written with nothing in common but the
grammar.  This file shows that they fit: whatever a printer writes, the reader turns back into the value
it was written from, whatever the value is and however deeply it nests.

* `quoted_flatMap_escaped`: any text survives its quotes.  The one trap is the number of a control
  character that is followed by another such number, which the reader takes two at a time.
* `numeral?_append`: a numeral ends where nothing prolongs it, so a number that reads back when its text
  stands alone (`Number.reread?`) also does in front of a comma, a bracket or a line break.
* `Value.laid`: one printer with the blanks as a parameter (`Spacing`), of which both printers are cases.
* `value?_laid`, `items?_laid`, `fields?_laid`: the reader follows the printer, by induction on the count
  that bounds its recursion; twice the length of the text is enough.
* `Tree.ofText?_render`, `Tree.ofText?_pretty`: the two printers.

That numbers read back is an assumption wherever it is used.  It is about the digits of binary64 numbers
and has nothing to do with the text around them.
-/

namespace Orrery

namespace Tree.Reader

/-! ## Texts in quotes -/

section Quoted

variable (spoiled : Bool) (gathered rest : List Char)

theorem quoted_plain {c : Char} (hquote : c ≠ '"') (hslash : c ≠ '\\') (hc : ¬ c.toNat < 32) :
    quoted spoiled gathered (c :: rest) = quoted spoiled (c :: gathered) rest := by
  rw [quoted]
  · rw [if_neg hc]
  · exact fun h => hquote h
  · exact fun _ _ _ _ _ _ _ _ _ h _ => hslash h
  · exact fun _ _ _ _ _ h _ => hslash h
  · exact fun _ _ h _ => hslash h

theorem simpleEscape?_u : simpleEscape? 'u' = none := by decide

theorem quoted_simple {c c' : Char} (hc : simpleEscape? c = some c') :
    quoted spoiled gathered ('\\' :: c :: rest) = quoted spoiled (c' :: gathered) rest := by
  have hu : c ≠ 'u' := by
    rintro rfl
    rw [simpleEscape?_u] at hc
    cases hc
  rw [quoted]
  · rw [hc]
  · exact fun _ _ _ _ _ _ _ _ _ h _ => hu h
  · exact fun _ _ _ _ _ h _ => hu h

/-- A number that is no half of a pair stands for its character, whatever comes next. -/
theorem quoted_code {a b c d : Char} {n : Nat} (hcode : hex4? a b c d = some n) (hn : n < 0xD800)
    (hnext : ∀ e f g h r, rest = '\\' :: 'u' :: e :: f :: g :: h :: r →
      (hex4? e f g h).isSome = true) :
    quoted spoiled gathered ('\\' :: 'u' :: a :: b :: c :: d :: rest) =
      quoted spoiled (Char.ofNat n :: gathered) rest := by
  have hhigh : isHighHalf n = false := by simp [isHighHalf]; omega
  have hlow : isLowHalf n = false := by simp [isLowHalf]; omega
  by_cases hpair : ∃ e f g h r, rest = '\\' :: 'u' :: e :: f :: g :: h :: r
  · obtain ⟨e, f, g, h, r, rfl⟩ := hpair
    obtain ⟨m, hm⟩ := Option.isSome_iff_exists.1 (hnext e f g h r rfl)
    rw [quoted, hcode, hm]
    simp [hhigh, hlow]
  · rw [quoted]
    · rw [hcode]
      simp [hhigh, hlow]
    · exact fun e f g h r hr => hpair ⟨e, f, g, h, r, hr⟩

theorem quoted_end :
    quoted false gathered ('"' :: rest) = some (.text (String.ofList gathered.reverse), rest) := by
  rw [quoted]
  rfl

theorem hexValue?_hexDigit (n : Nat) : hexValue? (Text.hexDigit n) = some (n % 16) := by
  have hall : ∀ d < 16, hexValue? (Nat.digitChar d) = some d := by decide
  exact hall (n % 16) (Nat.mod_lt _ (by decide))

/-- The four digits with which a control character is written. -/
theorem hex4?_control {c : Char} (hc : c.toNat < 32) :
    hex4? '0' '0' (Text.hexDigit (c.toNat / 16)) (Text.hexDigit c.toNat) = some c.toNat := by
  have hzero : hexValue? '0' = some 0 := by decide
  simp only [hex4?, hzero, hexValue?_hexDigit, Option.bind_eq_bind, Option.bind_some]
  congr 1
  omega

/-- A character stands for itself, or after a backslash as a letter or as a number. -/
theorem escaped_cases (c : Char) :
    (∃ e, Text.escaped c = ['\\', e] ∧ simpleEscape? e = some c) ∨
    (c.toNat < 32 ∧ Text.escaped c =
      ['\\', 'u', '0', '0', Text.hexDigit (c.toNat / 16), Text.hexDigit c.toNat]) ∨
    (c ≠ '"' ∧ c ≠ '\\' ∧ ¬ c.toNat < 32 ∧ Text.escaped c = [c]) := by
  unfold Text.escaped
  iterate 7
    split
    · next h => exact .inl ⟨_, rfl, by rw [h]; decide⟩
  split
  · next hc => exact .inr (.inl ⟨hc, rfl⟩)
  · next hquote hslash _ _ _ _ _ hc => exact .inr (.inr ⟨hquote, hslash, hc, rfl⟩)

/-- An escaped text that goes on with a number goes on with four digits. -/
theorem isSome_hex4?_of_escaped {s rest r : List Char} {e f g h : Char}
    (heq : s.flatMap Text.escaped ++ '"' :: rest = '\\' :: 'u' :: e :: f :: g :: h :: r) :
    (hex4? e f g h).isSome = true := by
  cases s with
  | nil => simp at heq
  | cons c s =>
    rw [List.flatMap_cons] at heq
    rcases escaped_cases c with ⟨e', hc, hsimple⟩ | ⟨hlow, hc⟩ | ⟨-, hslash, -, hc⟩
    · rw [hc] at heq
      have hu : e' = 'u' := (List.cons.inj (List.cons.inj heq).2).1
      rw [hu, simpleEscape?_u] at hsimple
      cases hsimple
    · rw [hc] at heq
      simp only [List.cons_append, List.nil_append, List.cons.injEq, true_and] at heq
      obtain ⟨rfl, rfl, rfl, rfl, -⟩ := heq
      rw [hex4?_control hlow]
      rfl
    · rw [hc] at heq
      exact absurd (List.cons.inj heq).1 hslash

/-- **A text in quotes is read back**, whatever it holds. -/
theorem quoted_flatMap_escaped (s : List Char) :
    quoted false gathered (s.flatMap Text.escaped ++ '"' :: rest) =
      some (.text (String.ofList (gathered.reverse ++ s)), rest) := by
  induction s generalizing gathered with
  | nil => rw [List.flatMap_nil, List.nil_append, quoted_end, List.append_nil]
  | cons c s ih =>
    have hmore : quoted false (c :: gathered) (s.flatMap Text.escaped ++ '"' :: rest) =
        some (.text (String.ofList (gathered.reverse ++ c :: s)), rest) := by
      rw [ih, List.reverse_cons, List.append_assoc, List.singleton_append]
    rw [List.flatMap_cons, List.append_assoc, ← hmore]
    rcases escaped_cases c with ⟨e, hc, hsimple⟩ | ⟨hlow, hc⟩ | ⟨hquote, hslash, hprinted, hc⟩
    · rw [hc]
      exact quoted_simple false gathered _ hsimple
    · have hcode := quoted_code false gathered (s.flatMap Text.escaped ++ '"' :: rest)
        (hex4?_control hlow) (by omega) fun _ _ _ _ _ hr => isSome_hex4?_of_escaped hr
      rw [Char.ofNat_toNat] at hcode
      rw [hc]
      exact hcode
    · rw [hc]
      exact quoted_plain false gathered _ hquote hslash hprinted

theorem quoted_quoted (s : String) :
    ∃ inner, Text.quoted s ++ rest = '"' :: inner ∧ quoted false [] inner = some (.text s, rest) := by
  refine ⟨s.toList.flatMap Text.escaped ++ '"' :: rest, ?_, ?_⟩
  · rw [Text.quoted, List.append_assoc]
    rfl
  · rw [quoted_flatMap_escaped, List.reverse_nil, List.nil_append, String.ofList_toList]


end Quoted

/-! ## Numerals -/

/-- A text that does not prolong a number in front of it. -/
def Stops (tail : List Char) : Prop :=
  ∀ c ∈ tail.head?, c.isDigit = false ∧ c ≠ '.' ∧ c ≠ 'e' ∧ c ≠ 'E'

theorem stops_nil : Stops [] := by simp [Stops]

variable {cs ds rest tail : List Char}

theorem takeWhile_isDigit_of_stops (h : Stops tail) : tail.takeWhile Char.isDigit = [] := by
  cases tail with
  | nil => rfl
  | cons c tail => simp [(h c rfl).1]

theorem dropWhile_isDigit_of_stops (h : Stops tail) : tail.dropWhile Char.isDigit = tail := by
  cases tail with
  | nil => rfl
  | cons c tail => simp [(h c rfl).1]

theorem digits?_append (h : digits? cs = some (ds, rest)) (ht : Stops tail) :
    digits? (cs ++ tail) = some (ds, rest ++ tail) := by
  unfold digits? at h ⊢
  dsimp only at h ⊢
  have htake : (cs ++ tail).takeWhile Char.isDigit = cs.takeWhile Char.isDigit := by
    rw [List.takeWhile_append, takeWhile_isDigit_of_stops ht, List.append_nil]
    split
    · next hall => exact (List.IsPrefix.eq_of_length (List.takeWhile_prefix _) hall).symm
    · rfl
  have hdrop : (cs ++ tail).dropWhile Char.isDigit = cs.dropWhile Char.isDigit ++ tail := by
    rw [List.dropWhile_append, dropWhile_isDigit_of_stops ht]
    split
    · next hall => simp [List.isEmpty_iff.1 hall]
    · rfl
  rw [htake, hdrop]
  split at h
  · cases h
  · next hsome =>
    simp only [Option.some.injEq, Prod.mk.injEq] at h
    rw [if_neg hsome, h.1, h.2]

theorem wholePart?_append (h : wholePart? cs = some (ds, rest)) (ht : Stops tail) :
    wholePart? (cs ++ tail) = some (ds, rest ++ tail) := by
  cases cs with
  | nil => cases h
  | cons c cs =>
    by_cases hc : c = '0'
    · subst hc
      simp only [wholePart?, Option.some.injEq, Prod.mk.injEq] at h
      rw [List.cons_append, wholePart?, h.1, h.2]
    · rw [wholePart?] at h
      · rw [List.cons_append, wholePart?, ← List.cons_append]
        · exact digits?_append h ht
        · exact fun _ heq => hc (List.cons.inj heq).1
      · exact fun _ heq => hc (List.cons.inj heq).1

/-- Digits with something made of them. -/
theorem map_digits?_append {β : Type} (f : List Char → β) {x : β}
    (h : ((digits? cs).map fun (ds, rest) => (f ds, rest)) = some (x, rest)) (ht : Stops tail) :
    ((digits? (cs ++ tail)).map fun (ds, rest) => (f ds, rest)) = some (x, rest ++ tail) := by
  obtain ⟨⟨ds, r⟩, hdigits, heq⟩ := Option.map_eq_some_iff.1 h
  obtain ⟨rfl, rfl⟩ := Prod.mk.inj heq
  rw [digits?_append hdigits ht, Option.map_some]

theorem placesPart?_append {places : Option (List Char)} (h : placesPart? cs = some (places, rest))
    (ht : Stops tail) : placesPart? (cs ++ tail) = some (places, rest ++ tail) := by
  cases cs with
  | nil =>
    obtain ⟨rfl, rfl⟩ := Prod.mk.inj (Option.some.inj h)
    rw [List.nil_append, placesPart?]
    rintro r rfl
    exact (ht '.' rfl).2.1 rfl
  | cons c cs =>
    by_cases hc : c = '.'
    · subst hc
      exact map_digits?_append some h ht
    · have hother : ∀ more, placesPart? (c :: more) = some (none, c :: more) := by
        intro more
        rw [placesPart?]
        exact fun _ heq => hc (List.cons.inj heq).1
      rw [hother] at h
      obtain ⟨rfl, rfl⟩ := Prod.mk.inj (Option.some.inj h)
      exact hother _

theorem signed?_append {exponent : Int} (h : signed? cs = some (exponent, rest)) (ht : Stops tail) :
    signed? (cs ++ tail) = some (exponent, rest ++ tail) := by
  cases cs with
  | nil => cases h
  | cons c cs =>
    by_cases hminus : c = '-'
    · subst hminus
      exact map_digits?_append (fun ds => -(Numeral.ofDigits ds : Int)) h ht
    by_cases hplus : c = '+'
    · subst hplus
      exact map_digits?_append (fun ds => (Numeral.ofDigits ds : Int)) h ht
    · have hother : ∀ more, signed? (c :: more) =
          (digits? (c :: more)).map fun (ds, rest) => ((Numeral.ofDigits ds : Int), rest) := by
        intro more
        rw [signed?]
        · exact fun _ heq => hminus (List.cons.inj heq).1
        · exact fun _ heq => hplus (List.cons.inj heq).1
      rw [hother] at h
      rw [List.cons_append, hother]
      exact map_digits?_append (fun ds => (Numeral.ofDigits ds : Int)) h ht

theorem exponentPart?_append {exponent : Option Int}
    (h : exponentPart? cs = some (exponent, rest)) (ht : Stops tail) :
    exponentPart? (cs ++ tail) = some (exponent, rest ++ tail) := by
  cases cs with
  | nil =>
    obtain ⟨rfl, rfl⟩ := Prod.mk.inj (Option.some.inj h)
    cases tail with
    | nil => rfl
    | cons c tail =>
      rw [List.nil_append, exponentPart?, if_neg (not_or.2 (ht c rfl).2.2)]
  | cons c cs =>
    rw [exponentPart?] at h
    rw [List.cons_append, exponentPart?]
    by_cases hc : c = 'e' ∨ c = 'E'
    · rw [if_pos hc] at h ⊢
      obtain ⟨⟨e, r⟩, hsigned, heq⟩ := Option.map_eq_some_iff.1 h
      obtain ⟨rfl, rfl⟩ := Prod.mk.inj heq
      rw [signed?_append hsigned ht, Option.map_some]
    · rw [if_neg hc] at h ⊢
      obtain ⟨rfl, rfl⟩ := Prod.mk.inj (Option.some.inj h)
      rfl

theorem unsigned?_append {negative : Bool} {numeral : Numeral}
    (h : unsigned? negative cs = some (numeral, rest)) (ht : Stops tail) :
    unsigned? negative (cs ++ tail) = some (numeral, rest ++ tail) := by
  simp only [unsigned?, Option.bind_eq_bind, Option.bind_eq_some_iff] at h
  obtain ⟨⟨ds, cs'⟩, hwhole, ⟨places, cs''⟩, hplaces, ⟨exponent, last⟩, hexponent, heq⟩ := h
  obtain ⟨rfl, rfl⟩ := Prod.mk.inj (Option.some.inj heq)
  simp only [unsigned?, Option.bind_eq_bind, wholePart?_append hwhole ht, Option.bind_some,
    placesPart?_append hplaces ht, exponentPart?_append hexponent ht]
  rfl

theorem numeral?_of_ne {c : Char} (hc : c ≠ '-') (cs : List Char) :
    numeral? (c :: cs) = unsigned? false (c :: cs) := by
  rw [numeral?]
  exact fun _ heq => hc (List.cons.inj heq).1

/-- **A numeral ends where nothing prolongs it.** -/
theorem numeral?_append {numeral : Numeral} (h : numeral? cs = some (numeral, rest)) (ht : Stops tail) :
    numeral? (cs ++ tail) = some (numeral, rest ++ tail) := by
  cases cs with
  | nil => cases h
  | cons c cs =>
    by_cases hc : c = '-'
    · subst hc
      exact unsigned?_append h ht
    · rw [numeral?_of_ne hc] at h
      rw [List.cons_append, numeral?_of_ne hc]
      exact unsigned?_append h ht

theorem isDigit_of_wholePart? {c : Char} (h : wholePart? (c :: cs) = some (ds, rest)) :
    c.isDigit = true := by
  by_cases hc : c = '0'
  · rw [hc]
    rfl
  · rw [wholePart?] at h
    · by_contra hdigit
      simp [digits?, hdigit] at h
    · exact fun _ heq => hc (List.cons.inj heq).1

/-- A numeral begins with its sign or with a digit. -/
theorem exists_head_of_numeral? {numeral : Numeral} (h : numeral? cs = some (numeral, rest)) :
    ∃ c cs', cs = c :: cs' ∧ (c = '-' ∨ c.isDigit = true) := by
  cases cs with
  | nil => cases h
  | cons c cs =>
    refine ⟨c, cs, rfl, ?_⟩
    by_cases hc : c = '-'
    · exact .inl hc
    · rw [numeral?_of_ne hc] at h
      simp only [unsigned?, Option.bind_eq_bind, Option.bind_eq_some_iff] at h
      obtain ⟨⟨ds, cs'⟩, hwhole, -⟩ := h
      exact .inr (isDigit_of_wholePart? hwhole)

/-! ## Blanks -/

theorem skipBlanks_append {blanks : List Char} (h : ∀ c ∈ blanks, isBlank c = true)
    (cs : List Char) : skipBlanks (blanks ++ cs) = skipBlanks cs :=
  List.dropWhile_append_of_pos h

theorem skipBlanks_cons {c : Char} (h : isBlank c = false) (cs : List Char) :
    skipBlanks (c :: cs) = c :: cs := List.dropWhile_cons_of_neg (by simp [h])

theorem value?_append {blanks : List Char} (h : ∀ c ∈ blanks, isBlank c = true) (fuel : Nat)
    (cs : List Char) : value? fuel (blanks ++ cs) = value? fuel cs := by
  cases fuel with
  | zero => rfl
  | succ n => rw [value?, value?, skipBlanks_append h]

theorem items?_append {blanks : List Char} (h : ∀ c ∈ blanks, isBlank c = true) (fuel : Nat)
    (gathered : List Tree) (cs : List Char) :
    items? fuel gathered (blanks ++ cs) = items? fuel gathered cs := by
  cases fuel with
  | zero => rfl
  | succ n => rw [items?, items?, value?_append h]

theorem fields?_append {blanks : List Char} (h : ∀ c ∈ blanks, isBlank c = true) (fuel : Nat)
    (gathered : List (Tree × Tree)) (cs : List Char) :
    fields? fuel gathered (blanks ++ cs) = fields? fuel gathered cs := by
  cases fuel with
  | zero => rfl
  | succ n => rw [fields?, fields?, skipBlanks_append h]

end Tree.Reader

/-! ## Two printers in one -/

/-- The number that a text of a number denotes. -/
def Number.reread? (n : Number) : Option Number :=
  match Tree.Reader.numeral? n.render with
  | some (numeral, []) => numeral.number?
  | _ => none

namespace Value

mutual

/-- The numbers in a value, in the order in which they are written. -/
def numbers : Value → List Number
  | .number n => [n]
  | .list items => itemNumbers items
  | .mapping fields => fieldNumbers fields
  | .null | .bool _ | .text _ => []

/-- The numbers in a list. -/
def itemNumbers : List Value → List Number
  | [] => []
  | v :: rest => numbers v ++ itemNumbers rest

/-- The numbers in a mapping. -/
def fieldNumbers : List (String × Value) → List Number
  | [] => []
  | (_, v) :: rest => numbers v ++ fieldNumbers rest

end

/-- Where blanks stand in a text, and which. -/
structure Spacing where
  /-- In front of an item or a closing bracket at a level. -/
  gap : Nat → List Char
  /-- After a colon. -/
  after : List Char
  /-- What stands there is blank. -/
  gap_blank : ∀ level, ∀ c ∈ gap level, Tree.Reader.isBlank c = true
  /-- What stands there is blank. -/
  after_blank : ∀ c ∈ after, Tree.Reader.isBlank c = true

/-- Everything on one line. -/
def Spacing.compact : Spacing := ⟨fun _ => [], [], by simp, by simp⟩

/-- Every item on a line of its own. -/
def Spacing.indented : Spacing where
  gap := newline
  after := [' ']
  gap_blank := by
    intro level c hc
    rcases List.mem_cons.1 hc with rfl | hc
    · rfl
    · rw [List.eq_of_mem_replicate hc]
      rfl
  after_blank := by simp [Tree.Reader.isBlank]

@[simp] theorem Spacing.gap_compact (level : Nat) : Spacing.compact.gap level = [] := rfl

@[simp] theorem Spacing.after_compact : Spacing.compact.after = [] := rfl

@[simp] theorem Spacing.gap_indented (level : Nat) : Spacing.indented.gap level = newline level := rfl

@[simp] theorem Spacing.after_indented : Spacing.indented.after = [' '] := rfl

section Laid

variable (sp : Spacing)

mutual

/-- The text of a value at a level, with blanks in front of every item and after every colon. -/
def laid (level : Nat) : Value → List Char
  | .null => ['n', 'u', 'l', 'l']
  | .bool true => ['t', 'r', 'u', 'e']
  | .bool false => ['f', 'a', 'l', 's', 'e']
  | .number n => n.render
  | .text s => Text.quoted s
  | .list [] => ['[', ']']
  | .list (v :: rest) => '[' :: (sp.gap (level + 1) ++ (laid (level + 1) v ++ laidItems level rest))
  | .mapping [] => ['\x7b', '\x7d']
  | .mapping ((k, v) :: rest) =>
    '\x7b' :: (sp.gap (level + 1) ++
      (Text.quoted k ++ ':' :: (sp.after ++ (laid (level + 1) v ++ laidFields level rest))))

/-- What follows the first item of a list. -/
def laidItems (level : Nat) : List Value → List Char
  | [] => sp.gap level ++ [']']
  | v :: rest => ',' :: (sp.gap (level + 1) ++ (laid (level + 1) v ++ laidItems level rest))

/-- What follows the first field of a mapping. -/
def laidFields (level : Nat) : List (String × Value) → List Char
  | [] => sp.gap level ++ ['\x7d']
  | (k, v) :: rest =>
    ',' :: (sp.gap (level + 1) ++
      (Text.quoted k ++ ':' :: (sp.after ++ (laid (level + 1) v ++ laidFields level rest))))

end

end Laid

mutual

theorem chars_eq_laid (level : Nat) : ∀ v : Value, chars v = laid .compact level v
  | .null | .bool true | .bool false | .number _ | .text _ | .list [] | .mapping [] => by
    simp only [chars, laid]
  | .list (v :: rest) => by
    rw [chars, laid, chars_eq_laid (level + 1) v, itemChars_eq_laid level rest]
    rfl
  | .mapping ((k, v) :: rest) => by
    rw [chars, laid, chars_eq_laid (level + 1) v, fieldChars_eq_laid level rest]
    simp

theorem itemChars_eq_laid (level : Nat) :
    ∀ items : List Value, itemChars items = laidItems .compact level items
  | [] => by simp [itemChars, laidItems]
  | v :: rest => by
    rw [itemChars, laidItems, chars_eq_laid (level + 1) v, itemChars_eq_laid level rest]
    rfl

theorem fieldChars_eq_laid (level : Nat) :
    ∀ fields : List (String × Value), fieldChars fields = laidFields .compact level fields
  | [] => by simp [fieldChars, laidFields]
  | (k, v) :: rest => by
    rw [fieldChars, laidFields, chars_eq_laid (level + 1) v, fieldChars_eq_laid level rest]
    simp

end

mutual

theorem prettyChars_eq_laid (level : Nat) : ∀ v : Value, prettyChars level v = laid .indented level v
  | .null | .bool true | .bool false | .number _ | .text _ | .list [] | .mapping [] => by
    simp only [prettyChars, laid]
  | .list (v :: rest) => by
    rw [prettyChars, laid, prettyChars_eq_laid (level + 1) v, prettyItems_eq_laid level rest]
    simp
  | .mapping ((k, v) :: rest) => by
    rw [prettyChars, laid, prettyChars_eq_laid (level + 1) v, prettyFields_eq_laid level rest]
    simp

theorem prettyItems_eq_laid (level : Nat) :
    ∀ items : List Value, prettyItems level items = laidItems .indented level items
  | [] => by simp [prettyItems, laidItems]
  | v :: rest => by
    rw [prettyItems, laidItems, prettyChars_eq_laid (level + 1) v, prettyItems_eq_laid level rest]
    simp

theorem prettyFields_eq_laid (level : Nat) :
    ∀ fields : List (String × Value), prettyFields level fields = laidFields .indented level fields
  | [] => by simp [prettyFields, laidFields]
  | (k, v) :: rest => by
    rw [prettyFields, laidFields, prettyChars_eq_laid (level + 1) v, prettyFields_eq_laid level rest]
    simp

end

end Value

namespace Tree.Reader

open Value

variable (sp : Spacing)

/-! ## Reading what was printed -/

/-- A number reads back if its text is a numeral that denotes it. -/
theorem exists_numeral_of_reread? {n : Number} (h : n.reread? = some n) :
    ∃ numeral, numeral? n.render = some (numeral, []) ∧ numeral.number? = some n := by
  unfold Number.reread? at h
  split at h
  · next numeral hread => exact ⟨numeral, hread, h⟩
  · cases h

theorem isBlank_of_isDigit {c : Char} (h : c.isDigit = true) : isBlank c = false := by
  by_contra hblank
  simp only [isBlank, Bool.not_eq_false, Bool.or_eq_true, decide_eq_true_eq] at hblank
  rcases hblank with ((rfl | rfl) | rfl) | rfl <;> exact absurd h (by decide)

/-- A numeral is read as the number that it denotes. -/
theorem value?_numeral {cs rest : List Char} {numeral : Numeral} {n : Number}
    (h : numeral? cs = some (numeral, rest)) (hn : numeral.number? = some n) (fuel : Nat) :
    value? (fuel + 1) cs = some (.number n, rest) := by
  obtain ⟨c, cs, rfl, hc⟩ := exists_head_of_numeral? h
  have hne : ∀ d : Char, d ≠ '-' → d.isDigit = false → c ≠ d := by
    rintro d hminus hdigit rfl
    rcases hc with rfl | hc
    · exact hminus rfl
    · rw [hdigit] at hc
      cases hc
  have hblank : isBlank c = false := by
    rcases hc with rfl | hc
    · rfl
    · exact isBlank_of_isDigit hc
  rw [value?, skipBlanks_cons hblank]
  simp only [if_neg (hne '"' (by decide) (by decide)), if_neg (hne '[' (by decide) (by decide)),
    if_neg (hne '\x7b' (by decide) (by decide)), if_neg (hne 'n' (by decide) (by decide)),
    if_neg (hne 't' (by decide) (by decide)), if_neg (hne 'f' (by decide) (by decide)), if_pos hc, h,
    hn]

/-- A text of a value begins with a character that starts a value. -/
theorem exists_head_laid {v : Value} (hv : ∀ n ∈ v.numbers, n.reread? = some n) (level : Nat) :
    ∃ c cs, laid sp level v = c :: cs ∧ isBlank c = false ∧ c ≠ ']' := by
  cases v with
  | null => exact ⟨_, _, rfl, rfl, by decide⟩
  | bool b => cases b <;> exact ⟨_, _, rfl, rfl, by decide⟩
  | text s => exact ⟨'"', _, rfl, rfl, by decide⟩
  | number n =>
    obtain ⟨numeral, hread, -⟩ := exists_numeral_of_reread? (hv n (by simp [numbers]))
    obtain ⟨c, cs, hcs, hc⟩ := exists_head_of_numeral? hread
    refine ⟨c, cs, by rw [laid, hcs], ?_⟩
    rcases hc with rfl | hc
    · exact ⟨rfl, by decide⟩
    · refine ⟨isBlank_of_isDigit hc, ?_⟩
      rintro rfl
      exact absurd hc (by decide)
  | list items => cases items <;> exact ⟨'[', _, by rw [laid], rfl, by decide⟩
  | mapping fields => cases fields <;> exact ⟨'\x7b', _, by rw [laid], rfl, by decide⟩

theorem stops_of_blank {c : Char} (h : isBlank c = true) (cs : List Char) : Stops (c :: cs) := by
  simp only [isBlank, Bool.or_eq_true, decide_eq_true_eq] at h
  rintro d hd
  obtain rfl : c = d := by simpa using hd
  rcases h with ((rfl | rfl) | rfl) | rfl <;> decide

theorem stops_append {blanks : List Char} (h : ∀ c ∈ blanks, isBlank c = true) {cs : List Char}
    (hcs : Stops cs) : Stops (blanks ++ cs) := by
  cases blanks with
  | nil => exact hcs
  | cons c blanks => exact stops_of_blank (h c (List.mem_cons_self ..)) _

theorem stops_laidItems (level : Nat) (items : List Value) (tail : List Char) :
    Stops (laidItems sp level items ++ tail) := by
  cases items with
  | nil =>
    rw [laidItems, List.append_assoc]
    exact stops_append (sp.gap_blank level) (by simp [Stops])
  | cons v rest =>
    rw [laidItems]
    simp [Stops]

theorem stops_laidFields (level : Nat) (fields : List (String × Value)) (tail : List Char) :
    Stops (laidFields sp level fields ++ tail) := by
  cases fields with
  | nil =>
    rw [laidFields, List.append_assoc]
    exact stops_append (sp.gap_blank level) (by simp [Stops])
  | cons f rest =>
    rw [laidFields]
    simp [Stops]

theorem length_laid_pos {v : Value} (hv : ∀ n ∈ v.numbers, n.reread? = some n) (level : Nat) :
    0 < (laid sp level v).length := by
  obtain ⟨c, cs, hhead, -⟩ := exists_head_laid sp hv level
  rw [hhead]
  exact Nat.succ_pos _

theorem length_laidItems_pos (level : Nat) (items : List Value) :
    0 < (laidItems sp level items).length := by
  cases items <;> simp [laidItems]

/-! Each turn of the reader on its own. -/

theorem value?_list {fuel : Nat} {c : Char} {cs rest : List Char} (hskip : skipBlanks rest = c :: cs)
    (hc : c ≠ ']') : value? (fuel + 1) ('[' :: rest) = items? fuel [] (c :: cs) := by
  rw [value?, skipBlanks_cons (by decide)]
  simp only [hskip, if_false, if_true, Char.reduceEq]
  split
  · next heq => exact absurd (List.cons.inj heq).1 hc
  · rfl

theorem value?_mapping {fuel : Nat} {cs rest : List Char} (hskip : skipBlanks rest = '"' :: cs) :
    value? (fuel + 1) ('\x7b' :: rest) = fields? fuel [] ('"' :: cs) := by
  rw [value?, skipBlanks_cons (by decide)]
  simp only [hskip, if_false, if_true, Char.reduceEq]
  rfl

theorem value?_quoted (fuel : Nat) (s : String) (tail : List Char) :
    value? (fuel + 1) (Text.quoted s ++ tail) = some (.text s, tail) := by
  obtain ⟨inner, hinner, hread⟩ := quoted_quoted tail s
  rw [hinner, value?, skipBlanks_cons (by decide)]
  exact hread

theorem items?_comma {fuel : Nat} {gathered : List Tree} {cs rest rest' : List Char} {t : Tree}
    (hvalue : value? fuel cs = some (t, rest)) (hskip : skipBlanks rest = ',' :: rest') :
    items? (fuel + 1) gathered cs = items? fuel (t :: gathered) rest' := by
  rw [items?, hvalue]
  simp only [hskip]

theorem items?_close {fuel : Nat} {gathered : List Tree} {cs rest rest' : List Char} {t : Tree}
    (hvalue : value? fuel cs = some (t, rest)) (hskip : skipBlanks rest = ']' :: rest') :
    items? (fuel + 1) gathered cs = some (.list (t :: gathered).reverse, rest') := by
  rw [items?, hvalue]
  simp only [hskip]

theorem fields?_comma {fuel : Nat} {gathered : List (Tree × Tree)} {k : String}
    {cs rest rest' : List Char} {t : Tree} (hvalue : value? fuel cs = some (t, rest))
    (hskip : skipBlanks rest = ',' :: rest') :
    fields? (fuel + 1) gathered (Text.quoted k ++ ':' :: cs) =
      fields? fuel ((.text k, t) :: gathered) rest' := by
  obtain ⟨inner, hinner, hread⟩ := quoted_quoted (':' :: cs) k
  rw [hinner, fields?, skipBlanks_cons (by decide)]
  simp only [hread, skipBlanks_cons (show isBlank ':' = false by decide), hvalue, hskip]

theorem fields?_close {fuel : Nat} {gathered : List (Tree × Tree)} {k : String}
    {cs rest rest' : List Char} {t : Tree} (hvalue : value? fuel cs = some (t, rest))
    (hskip : skipBlanks rest = '\x7d' :: rest') :
    fields? (fuel + 1) gathered (Text.quoted k ++ ':' :: cs) =
      some (.mapping ((.text k, t) :: gathered).reverse, rest') := by
  obtain ⟨inner, hinner, hread⟩ := quoted_quoted (':' :: cs) k
  rw [hinner, fields?, skipBlanks_cons (by decide)]
  simp only [hread, skipBlanks_cons (show isBlank ':' = false by decide), hvalue, hskip]

mutual

/-- **What was printed is read**, up to where it ends. -/
theorem value?_laid (level fuel : Nat) {tail : List Char} (ht : Stops tail) (v : Value)
    (hv : ∀ n ∈ v.numbers, n.reread? = some n) (hfuel : 2 * (laid sp level v).length ≤ fuel + 1) :
    value? (fuel + 1) (laid sp level v ++ tail) = some (ofValue v, tail) := by
  match v with
  | .null =>
    rw [laid, value?]
    rfl
  | .bool true =>
    rw [laid, value?]
    rfl
  | .bool false =>
    rw [laid, value?]
    rfl
  | .number n =>
    obtain ⟨numeral, hread, hn⟩ := exists_numeral_of_reread? (hv n (by simp [numbers]))
    exact value?_numeral (numeral?_append hread ht) hn fuel
  | .text s => exact value?_quoted fuel s tail
  | .list [] =>
    rw [laid, value?]
    rfl
  | .mapping [] =>
    rw [laid, value?]
    rfl
  | .list (v :: rest) =>
    have hfirst : ∀ n ∈ v.numbers, n.reread? = some n := fun n hn =>
      hv n (List.mem_append_left _ hn)
    obtain ⟨c, cs, hhead, hblank, hc⟩ := exists_head_laid sp hfirst (level + 1)
    have hskip : skipBlanks (sp.gap (level + 1) ++ (laid sp (level + 1) v ++
        laidItems sp level rest) ++ tail) = c :: (cs ++ laidItems sp level rest ++ tail) := by
      rw [List.append_assoc, skipBlanks_append (sp.gap_blank _), hhead]
      exact skipBlanks_cons hblank _
    have hitems := items?_laid level fuel [] tail v rest hv (by
      rw [laid, List.length_cons, List.length_append] at hfuel
      omega)
    rw [hhead] at hitems
    rw [laid, List.cons_append, value?_list hskip hc]
    simpa [ofValue, ofValues] using hitems
  | .mapping ((k, v) :: rest) =>
    obtain ⟨inner, hinner, -⟩ := quoted_quoted
      (':' :: (sp.after ++ (laid sp (level + 1) v ++ (laidFields sp level rest ++ tail)))) k
    have hfields := fields?_laid level fuel [] tail k v rest hv (by
      rw [laid, List.length_cons, List.length_append] at hfuel
      omega)
    rw [hinner] at hfields
    have hskip : skipBlanks (sp.gap (level + 1) ++ (Text.quoted k ++ ':' :: (sp.after ++
        (laid sp (level + 1) v ++ laidFields sp level rest))) ++ tail) = '"' :: inner := by
      rw [List.append_assoc, skipBlanks_append (sp.gap_blank _), ← skipBlanks_cons (by decide) inner,
        ← hinner]
      simp
    rw [laid, List.cons_append, value?_mapping hskip, hfields]
    rfl
termination_by fuel + 1

/-- The items of a list are read one by one. -/
theorem items?_laid (level fuel : Nat) (gathered : List Tree) (tail : List Char) (v : Value)
    (rest : List Value) (hv : ∀ n ∈ itemNumbers (v :: rest), n.reread? = some n)
    (hfuel : 2 * (laid sp (level + 1) v ++ laidItems sp level rest).length ≤ fuel) :
    items? fuel gathered (laid sp (level + 1) v ++ (laidItems sp level rest ++ tail)) =
      some (.list (gathered.reverse ++ ofValue v :: ofValues rest), tail) := by
  obtain ⟨hfirst, hothers⟩ := List.forall_mem_append.1 hv
  have hpos := length_laidItems_pos sp level rest
  have hpos' := length_laid_pos sp hfirst (level + 1)
  rw [List.length_append] at hfuel
  obtain ⟨m, rfl⟩ : ∃ m, fuel = m + 2 := ⟨fuel - 2, by omega⟩
  have hvalue := value?_laid (level + 1) m (stops_laidItems sp level rest tail) v hfirst
    (by omega)
  match rest with
  | [] =>
    have hskip : skipBlanks (laidItems sp level [] ++ tail) = ']' :: tail := by
      rw [laidItems, List.append_assoc, skipBlanks_append (sp.gap_blank _)]
      exact skipBlanks_cons (by decide) _
    rw [items?_close hvalue hskip]
    simp [ofValues]
  | v' :: rest =>
    have hskip : skipBlanks (laidItems sp level (v' :: rest) ++ tail) = ',' ::
        (sp.gap (level + 1) ++ (laid sp (level + 1) v' ++ (laidItems sp level rest ++ tail))) := by
      rw [laidItems, List.cons_append, skipBlanks_cons (by decide)]
      simp
    rw [items?_comma hvalue hskip, items?_append (sp.gap_blank _),
      items?_laid level (m + 1) _ tail v' rest hothers]
    · simp [ofValues]
    · rw [laidItems, List.length_cons, List.length_append] at hfuel
      omega
termination_by fuel

/-- The fields of a mapping are read one by one. -/
theorem fields?_laid (level fuel : Nat) (gathered : List (Tree × Tree)) (tail : List Char)
    (k : String) (v : Value) (rest : List (String × Value))
    (hv : ∀ n ∈ fieldNumbers ((k, v) :: rest), n.reread? = some n)
    (hfuel : 2 * (Text.quoted k ++ ':' :: (sp.after ++
      (laid sp (level + 1) v ++ laidFields sp level rest))).length ≤ fuel) :
    fields? fuel gathered (Text.quoted k ++ ':' :: (sp.after ++
      (laid sp (level + 1) v ++ (laidFields sp level rest ++ tail)))) =
      some (.mapping (gathered.reverse ++ (.text k, ofValue v) :: ofFields rest), tail) := by
  obtain ⟨hfirst, hothers⟩ := List.forall_mem_append.1 hv
  rw [List.length_append, List.length_cons, List.length_append, List.length_append] at hfuel
  obtain ⟨m, rfl⟩ : ∃ m, fuel = m + 2 := ⟨fuel - 2, by omega⟩
  have hvalue := value?_laid (level + 1) m (stops_laidFields sp level rest tail) v hfirst
    (by omega)
  rw [← value?_append sp.after_blank] at hvalue
  match rest with
  | [] =>
    have hskip : skipBlanks (laidFields sp level [] ++ tail) = '\x7d' :: tail := by
      rw [laidFields, List.append_assoc, skipBlanks_append (sp.gap_blank _)]
      exact skipBlanks_cons (by decide) _
    rw [fields?_close hvalue hskip]
    simp [ofFields]
  | (k', v') :: rest =>
    have hskip : skipBlanks (laidFields sp level ((k', v') :: rest) ++ tail) = ',' ::
        (sp.gap (level + 1) ++ (Text.quoted k' ++ ':' :: (sp.after ++
          (laid sp (level + 1) v' ++ (laidFields sp level rest ++ tail))))) := by
      rw [laidFields, List.cons_append, skipBlanks_cons (by decide)]
      simp
    rw [fields?_comma hvalue hskip, fields?_append (sp.gap_blank _),
      fields?_laid level (m + 1) _ tail k' v' rest hothers]
    · simp [ofFields]
    · rw [laidFields, List.length_cons, List.length_append] at hfuel
      omega
termination_by fuel

end

end Tree.Reader

namespace Tree

open Value

/-- **A text that was printed reads as what it was printed from.** -/
theorem ofText?_laid (sp : Spacing) {v : Value} (hv : ∀ n ∈ v.numbers, n.reread? = some n) :
    ofText? (String.ofList (laid sp 0 v)) = some (ofValue v) := by
  have hread := Reader.value?_laid sp 0 (2 * (laid sp 0 v).length + 1) Reader.stops_nil v hv (by omega)
  rw [List.append_nil] at hread
  rw [ofText?, String.toList_ofList, hread]
  rfl

theorem ofText?_render {v : Value} (hv : ∀ n ∈ v.numbers, n.reread? = some n) :
    ofText? v.render = some (ofValue v) := by
  rw [render, chars_eq_laid 0]
  exact ofText?_laid .compact hv

theorem ofText?_pretty {v : Value} (hv : ∀ n ∈ v.numbers, n.reread? = some n) :
    ofText? v.pretty = some (ofValue v) := by
  rw [pretty, prettyChars_eq_laid 0]
  exact ofText?_laid .indented hv

end Tree

end Orrery
