import Orrery.Filter.Utility

/-!
# Tests

`test` answers a question about its arguments with its status: zero for yes, one for no, two if it does
not understand.  What a question is depends on how many arguments there are.
-/

namespace Orrery

namespace Test

/-- Why a question has no answer. -/
inductive Fault where
  /-- Something should be a number. -/
  | number (text : Octets)
  /-- Something should be an operator. -/
  | operator (text : Octets)

/-- A whole number. -/
def integer (text : Octets) : Except Fault Int :=
  let trimmed := ((text.dropWhile Utility.isBlank).reverse.dropWhile Utility.isBlank).reverse
  let value? := match trimmed with
    | '-' :: ds => (Utility.natural? ds).map fun n => -(n : Int)
    | '+' :: ds => (Utility.natural? ds).map fun n => (n : Int)
    | ds => (Utility.natural? ds).map fun n => (n : Int)
  match value? with
  | some n => .ok n
  | none => .error (.number text)

/-- A question about a file or a text. -/
def unary? (isThere isDirectory : Octets → Bool) (op : String) (text : Octets) : Option Bool :=
  match op with
  | "-n" => some !text.isEmpty
  | "-z" => some text.isEmpty
  | "-e" | "-r" | "-w" => some (isThere text || isDirectory text)
  | "-f" | "-s" => some (isThere text && text ≠ "/dev/null".toList)
  | "-d" => some (isDirectory text)
  | "-x" => some (isDirectory text)
  | "-c" => some (text = "/dev/null".toList)
  | "-L" | "-h" | "-p" | "-S" | "-b" | "-t" => some false
  | _ => none

/-- A question about two texts. -/
def binary? (a : Octets) (op : String) (b : Octets) : Option (Except Fault Bool) :=
  let compare (p : Int → Int → Bool) : Option (Except Fault Bool) :=
    some ((integer a).bind fun x => (integer b).map fun y => p x y)
  match op with
  | "=" | "==" => some (.ok (a = b))
  | "!=" => some (.ok (a ≠ b))
  | "-eq" => compare fun x y => x = y
  | "-ne" => compare fun x y => x ≠ y
  | "-lt" => compare fun x y => x < y
  | "-le" => compare fun x y => x ≤ y
  | "-gt" => compare fun x y => y < x
  | "-ge" => compare fun x y => y ≤ x
  | _ => none

/-- Answer a question; every step drops an argument, so `fuel` need not exceed their number. -/
def answer (isThere isDirectory : Octets → Bool) : Nat → List Octets → Except Fault Bool
  | 0, args => .ok !args.isEmpty
  | fuel + 1, args =>
    match args with
    | [] => .ok false
    | [a] => .ok !a.isEmpty
    | [op, a] =>
      if op = ['!'] then .ok a.isEmpty
      else match unary? isThere isDirectory (String.ofList op) a with
        | some b => .ok b
        | none => .error (.operator op)
    | [a, op, b] =>
      match binary? a (String.ofList op) b with
      | some r => r
      | none =>
        if op = ['-', 'a'] then .ok (!a.isEmpty && !b.isEmpty)
        else if op = ['-', 'o'] then .ok (!a.isEmpty || !b.isEmpty)
        else if a = ['!'] then (answer isThere isDirectory fuel [op, b]).map (!·)
        else if a = ['('] && b = [')'] then .ok !op.isEmpty
        else .error (.operator op)
    | args =>
      let (left, right) := (args.takeWhile (· ≠ ['-', 'o']), args.dropWhile (· ≠ ['-', 'o']))
      let (first, second) := (args.takeWhile (· ≠ ['-', 'a']), args.dropWhile (· ≠ ['-', 'a']))
      match args, right, second with
      | _, _ :: right, _ => do
        let a ← answer isThere isDirectory fuel left
        let b ← answer isThere isDirectory fuel right
        return a || b
      | _, [], _ :: second => do
        let a ← answer isThere isDirectory fuel first
        let b ← answer isThere isDirectory fuel second
        return a && b
      | ['!'] :: rest, [], [] => (answer isThere isDirectory fuel rest).map (!·)
      | _ :: op :: _, _, _ => .error (.operator op)
      | _, _, _ => .error (.operator [])

/-- The directories that are there. -/
def isDirectory (path : Octets) : Bool :=
  [".", "..", "/", "/tmp", "/dev", "/bin", "/usr", "/etc", "/usr/bin", "/var", "/home", "/root"].any
    fun d => d.toList = path

/-- The status of a test, and a complaint without its beginning. -/
def run (file? : Octets → Option Octets) (args : List Octets) : Nat × Option Octets :=
  match answer (fun f => (file? f).isSome) isDirectory (args.length + 1) args with
  | .ok true => (0, none)
  | .ok false => (1, none)
  | .error (.number text) => (2, some ("Illegal number: ".toList ++ text))
  | .error (.operator text) => (2, some (text ++ ": unexpected operator".toList))

end Test

end Orrery
