import Orrery.Filter.Format

/-!
# Calculations

Whole numbers of 64 bits with the usual operators, from the loosest to the tightest: assignment, choice,
the logical and the bitwise ones, comparison, shifts, sums, products and signs.  Sums and products wrap
around.  A name stands for the value of a variable, and an assignment changes it.

`Calculation.value` reads and evaluates in one go.  Where a part is not evaluated — behind a choice or a
logical operator that is already decided — it is read all the same, but changes nothing.
-/

namespace Orrery

namespace Calculation

/-- The values of variables, the latest first. -/
abbrev Bindings := List (Octets × Octets)

/-- The value of a variable, if it has one. -/
def lookup? (vars : Bindings) (name : Octets) : Option Octets :=
  (vars.find? fun v => v.1 = name).map (·.2)

/-- A number as one of 64 bits. -/
def wrap (n : Int) : Int := Int.bmod n 18446744073709551616

/-- Why there is no value. -/
inductive Fault where
  /-- The text is no expression; what was expected. -/
  | wanted (what : String)
  /-- Something is divided by zero. -/
  | divisionByZero

/-- A value, the variables after it, and what is left of the text. -/
abbrev Step := Int × Bindings × List Char

/-- Without white space in front. -/
def trimmed (cs : List Char) : List Char := cs.dropWhile fun c => c = ' ' || c = '\t' || c = '\n'

/-- The operators of two operands, level by level, from the loosest to the tightest. -/
def levels : List (List String) :=
  [["||"], ["&&"], ["|"], ["^"], ["&"], ["==", "!="], ["<=", ">=", "<", ">"], ["<<", ">>"], ["+", "-"],
   ["*", "/", "%"]]

/-- An operator out of some in front; one that only begins a longer operator does not count. -/
def operator? (names : List String) (cs : List Char) : Option (String × List Char) :=
  let cs := trimmed cs
  let found := names.find? fun n => n.toList.isPrefixOf cs
  match found with
  | none => none
  | some n =>
    let rest := cs.drop n.length
    let longer := (["|", "&"].contains n && rest.head? = n.toList.head?)
      || (["<", ">"].contains n && rest.head? = n.toList.head?)
      || (["|", "^", "&", "<<", ">>", "+", "-", "*", "/", "%"].contains n && rest.head? = some '=')
    if longer then none else some (n, rest)

/-- The value of a logical or numerical operation. -/
def apply (name : String) (a b : Int) : Except Fault Int :=
  let truth (p : Bool) : Except Fault Int := .ok (if p then 1 else 0)
  let bits (f : BitVec 64 → BitVec 64 → BitVec 64) : Except Fault Int :=
    .ok (f (BitVec.ofInt 64 a) (BitVec.ofInt 64 b)).toInt
  match name with
  | "||" => truth (a ≠ 0 || b ≠ 0)
  | "&&" => truth (a ≠ 0 && b ≠ 0)
  | "|" => bits (· ||| ·)
  | "^" => bits (· ^^^ ·)
  | "&" => bits (· &&& ·)
  | "==" => truth (a = b)
  | "!=" => truth (a ≠ b)
  | "<=" => truth (a ≤ b)
  | ">=" => truth (b ≤ a)
  | "<" => truth (a < b)
  | ">" => truth (b < a)
  | "<<" => .ok (wrap (a * Nat.pow 2 (b % 64).toNat))
  | ">>" => .ok (a / Nat.pow 2 (b % 64).toNat)
  | "+" => .ok (wrap (a + b))
  | "-" => .ok (wrap (a - b))
  | "*" => .ok (wrap (a * b))
  | "/" => if b = 0 then .error .divisionByZero else .ok (wrap (Int.tdiv a b))
  | _ => if b = 0 then .error .divisionByZero else .ok (wrap (Int.tmod a b))

/-- The assignment operator in front, without its equals sign. -/
def assignment? (cs : List Char) : Option (String × List Char) :=
  match trimmed cs with
  | '=' :: '=' :: _ => none
  | '=' :: rest => some ("", rest)
  | cs =>
    (["<<", ">>", "+", "-", "*", "/", "%", "&", "|", "^"].find? fun n =>
      (n.toList ++ ['=']).isPrefixOf cs && !((n.toList ++ ['=', '=']).isPrefixOf cs)).map
      fun n => (n, cs.drop (n.length + 1))

/-- The value of a text in a variable: a number, or nothing. -/
def valueOf (text : Octets) : Except Fault Int :=
  match Format.argument text with
  | (n, true, _) => .ok (wrap n)
  | _ => .error (.wanted "primary")

mutual

/-- An expression with assignments and choices. -/
def expression : Nat → Bindings → List Char → Except Fault Step
  | 0, _, _ => .error (.wanted "primary")
  | fuel + 1, vars, cs =>
    let cs := trimmed cs
    let name := match cs with
      | c :: _ => if c.isDigit then [] else cs.takeWhile fun (d : Char) => d.isAlphanum || d = '_'
      | [] => []
    match name, assignment? (cs.drop name.length) with
    | _ :: _, some (op, rest) => do
      let (b, vars, rest) ← expression fuel vars rest
      let value ← if op = "" then pure b
        else apply op (← valueOf ((lookup? vars name).getD [])) b
      return (value, (name, (toString value).toList) :: vars, rest)
    | _, _ => do
      let (a, after, rest) ← level fuel levels vars cs
      match trimmed rest with
      | '?' :: rest =>
        let (b, afterYes, rest) ← expression fuel after rest
        match trimmed rest with
        | ':' :: rest =>
          let (c, afterNo, rest) ← expression fuel after rest
          return if a ≠ 0 then (b, afterYes, rest) else (c, afterNo, rest)
        | _ => throw (Fault.wanted "':'")
      | rest => return (a, after, rest)
termination_by structural fuel _ _ => fuel

/-- An expression of the given levels. -/
def level : Nat → List (List String) → Bindings → List Char → Except Fault Step
  | 0, _, _, _ => .error (.wanted "primary")
  | fuel + 1, names :: tighter, vars, cs => do
    let (a, vars, rest) ← level fuel tighter vars cs
    more fuel names tighter a vars rest
  | fuel + 1, [], vars, cs => operand fuel vars cs
termination_by structural fuel _ _ _ => fuel

/-- Further operands of a level. -/
def more : Nat → List String → List (List String) → Int → Bindings → List Char → Except Fault Step
  | 0, _, _, _, _, _ => .error (.wanted "primary")
  | fuel + 1, names, tighter, a, vars, cs =>
    match operator? names cs with
    | none => .ok (a, vars, cs)
    | some (name, rest) => do
      let (b, after, rest) ← level fuel tighter vars rest
      let isDecided := (name = "||" && a ≠ 0) || (name = "&&" && a = 0)
      let value ← apply name a (if isDecided then 0 else b)
      more fuel names tighter value (if isDecided then vars else after) rest
termination_by structural fuel _ _ _ _ _ => fuel

/-- A signed number, variable or parenthesis. -/
def operand : Nat → Bindings → List Char → Except Fault Step
  | 0, _, _ => .error (.wanted "primary")
  | fuel + 1, vars, cs =>
    match trimmed cs with
    | '+' :: rest => operand fuel vars rest
    | '-' :: rest => (operand fuel vars rest).map fun (a, s) => (wrap (-a), s)
    | '!' :: rest => (operand fuel vars rest).map fun (a, s) => (if a = 0 then 1 else 0, s)
    | '~' :: rest => (operand fuel vars rest).map fun (a, s) => (-a - 1, s)
    | '(' :: rest => do
      let (a, vars, rest) ← expression fuel vars rest
      match trimmed rest with
      | ')' :: rest => return (a, vars, rest)
      | _ => throw (Fault.wanted "')'")
    | c :: rest =>
      let word := (c :: rest).takeWhile fun c => c.isAlphanum || c = '_'
      let behind := (c :: rest).drop word.length
      if word.isEmpty then .error (.wanted "primary")
      else if c.isDigit then (valueOf word).map fun a => (a, vars, behind)
      else (valueOf ((lookup? vars word).getD [])).map fun a => (a, vars, behind)
    | [] => .error (.wanted "primary")
termination_by structural fuel _ _ => fuel

end

/-- The value of a text, and the variables after it; a text without anything is zero. -/
def value (vars : Bindings) (cs : List Char) : Except Fault (Int × Bindings) :=
  if (trimmed cs).isEmpty then .ok (0, vars)
  else do
    let (a, vars, rest) ← expression (32 * cs.length + 32) vars cs
    if (trimmed rest).isEmpty then return (a, vars) else throw (Fault.wanted "EOF")

end Calculation

end Orrery
