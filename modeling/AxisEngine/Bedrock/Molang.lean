import AxisEngine.Lib.Decimal
import Mathlib.Data.List.DropRight
import Mathlib.Data.List.TakeWhile

/-!
# Molang — expressions in animations (`client/bedrock/molang.cpp`)

A parser by recursive descent: a sum of products of factors.  It goes on after a mistake and keeps in
mind that there was one.  What a number stands for is left open: a node keeps the digits.

* `Node`, `Func` — the tree;
* `Parser` — what is still to be read, and whether something was wrong;
* `Parser.sum`, `Parser.product`, `Parser.factor`, `Parser.named` — the grammar;
* `Parser.parse` — the whole of a text.
-/

namespace AxisEngine
namespace Bedrock

open Lib

inductive Func
  | sin | cos | tan | abs | floor | ceil | round | sqrt | exp | ln | pow | min | max | mod | clamp
  | lerp
  deriving DecidableEq

inductive Op
  | add | sub | mul | div
  deriving DecidableEq

inductive Node
  | number (lexeme : Bytes)
  | animTime
  | neg (arg : Node)
  | binary (op : Op) (left right : Node)
  | call (func : Func) (args : List Node)

/-- `makeNumber(0.0f)`. -/
def Node.zero : Node :=
  .number [48]

def Op.char : Op → UInt8
  | .add => 43
  | .sub => 45
  | .mul => 42
  | .div => 47

/-- `rest`: the text from `m_pos` on. -/
structure Parser where
  rest : Bytes
  failed : Bool := false

def animTimeNames : List Bytes :=
  [ascii "query.anim_time", ascii "q.anim_time", ascii "anim_time"]

def funcTable : List (Bytes × Func) :=
  [(ascii "math.sin", .sin), (ascii "math.cos", .cos), (ascii "math.tan", .tan),
    (ascii "math.abs", .abs), (ascii "math.floor", .floor), (ascii "math.ceil", .ceil),
    (ascii "math.round", .round), (ascii "math.sqrt", .sqrt), (ascii "math.exp", .exp),
    (ascii "math.ln", .ln), (ascii "math.pow", .pow), (ascii "math.min", .min),
    (ascii "math.max", .max), (ascii "math.mod", .mod), (ascii "math.clamp", .clamp),
    (ascii "math.lerp", .lerp)]

def funcByName (name : Bytes) : Option Func :=
  (funcTable.find? fun entry => entry.1 = name).map Prod.snd

def isWordChar (c : UInt8) : Bool :=
  isLetter c || isDigit c || c = 95 || c = 46

def isNumberChar (c : UInt8) : Bool :=
  isDigit c || c = 46

def Spaces (sp : Bytes) : Prop :=
  ∀ c ∈ sp, isSpace c

def lower (c : UInt8) : UInt8 :=
  if 65 ≤ c ∧ c ≤ 90 then c - 65 + 97 else c

namespace Parser

def fail (p : Parser) : Parser :=
  { p with failed := true }

def skipSpace (p : Parser) : Parser :=
  { p with rest := p.rest.dropWhile isSpace }

def eat (c : UInt8) (p : Parser) : Bool × Parser :=
  let p := p.skipSpace
  if p.rest.head? = some c then (true, { p with rest := p.rest.tail }) else (false, p)

/-- `eat`, and it is a mistake when it does not work. -/
def close (c : UInt8) (p : Parser) : Parser :=
  if (p.eat c).1 then (p.eat c).2 else (p.eat c).2.fail

def word (p : Parser) : Bytes × Parser :=
  let p := p.skipSpace
  ((p.rest.takeWhile isWordChar).map lower, { p with rest := p.rest.dropWhile isWordChar })

def number (p : Parser) : Node × Parser :=
  (.number (p.rest.takeWhile isNumberChar), { p with rest := p.rest.dropWhile isNumberChar })

/-- The name that is called, which has to be known. -/
def callee (name : Bytes) (p : Parser) : Func × Parser :=
  match funcByName name with
  | some func => (func, p)
  | none => (.sin, p.fail)

/-- The loop of `sum` and of `product`, with their two operators. -/
def chain (op op' : Op) (operand : Parser → Option (Node × Parser)) :
    ℕ → Node → Parser → Option (Node × Parser)
  | 0, _, _ => none
  | k + 1, left, p =>
    let p := p.skipSpace
    if (p.eat op.char).1 then
      (operand (p.eat op.char).2).bind fun r =>
        chain op op' operand k (.binary op left r.1) r.2
    else if (p.eat op'.char).1 then
      (operand (p.eat op'.char).2).bind fun r =>
        chain op op' operand k (.binary op' left r.1) r.2
    else some (left, p)

-- `none`: the fuel was not enough
mutual

def sum : ℕ → Parser → Option (Node × Parser)
  | 0, _ => none
  | n + 1, p => (product n p).bind fun r =>
    chain .add .sub (product n) (r.2.rest.length + 1) r.1 r.2

def product : ℕ → Parser → Option (Node × Parser)
  | 0, _ => none
  | n + 1, p => (factor n p).bind fun r =>
    chain .mul .div (factor n) (r.2.rest.length + 1) r.1 r.2

def factor : ℕ → Parser → Option (Node × Parser)
  | 0, _ => none
  | n + 1, p =>
    let p := p.skipSpace
    match p.rest with
    | [] => some (.zero, p.fail)
    | c :: _ =>
      if (p.eat 45).1 then (factor n (p.eat 45).2).map fun r => (.neg r.1, r.2)
      else if (p.eat 43).1 then factor n (p.eat 43).2
      else if (p.eat 40).1 then (sum n (p.eat 40).2).map fun r => (r.1, r.2.close 41)
      else if isNumberChar c then some p.number
      else named n p

def named : ℕ → Parser → Option (Node × Parser)
  | 0, _ => none
  | n + 1, p =>
    let name := p.word.1
    let p := p.word.2
    if name = [] then some (.zero, p.fail)
    else
      let p := p.skipSpace
      if p.rest.head? ≠ some 40 then
        if name ∈ animTimeNames then some (.animTime, p) else some (.zero, p.fail)
      else
        let func := (callee name p).1
        let p := ((callee name p).2.eat 40).2.skipSpace
        if (p.eat 41).1 then some (.call func [], (p.eat 41).2)
        else (arguments n (p.eat 41).2).map fun r => (.call func r.1, r.2)

/-- The arguments of a call and the parenthesis behind them. -/
def arguments : ℕ → Parser → Option (List Node × Parser)
  | 0, _ => none
  | n + 1, p => (sum n p).bind fun r =>
    let p := r.2.skipSpace
    if (p.eat 44).1 then (arguments n (p.eat 44).2).map fun rs => (r.1 :: rs.1, rs.2)
    else some ([r.1], (p.eat 44).2.close 41)

end

/-- What may stand behind an expression, and that nothing else does. -/
def finish (p : Parser) : Parser :=
  let p := p.skipSpace
  let p := if p.rest.head? = some 59 then { p with rest := p.rest.tail } else p
  let p := p.skipSpace
  if p.rest = [] then p else p.fail

def fuel (src : Bytes) : ℕ :=
  6 * src.length + 6

def parse (src : Bytes) : Option (Node × Parser) :=
  (sum (fuel src) { rest := src }).map fun r => (r.1, r.2.finish)

/-! ## What the helpers do -/

variable {c : UInt8} {p : Parser} {n : ℕ} {left : Node}

theorem skipSpace_cases (p : Parser) : ∃ sp, Spaces sp ∧ p.rest = sp ++ p.skipSpace.rest :=
  ⟨p.rest.takeWhile isSpace, fun _ hc => List.mem_takeWhile_imp hc,
    List.takeWhile_append_dropWhile.symm⟩

theorem skipSpace_rest (p : Parser) : p.skipSpace.rest = p.rest.dropWhile isSpace := rfl

@[simp]
theorem skipSpace_skipSpace (p : Parser) : p.skipSpace.skipSpace = p.skipSpace := by
  simp [skipSpace, List.dropWhile_idempotent]

/-- A character is eaten after spaces, or nothing but the spaces is. -/
theorem eat_cases (c : UInt8) (p : Parser) :
    (∃ sp t, Spaces sp ∧ p.rest = sp ++ c :: t ∧
      p.eat c = (true, { rest := t, failed := p.failed })) ∨
    p.skipSpace.rest.head? ≠ some c ∧ p.eat c = (false, p.skipSpace) := by
  by_cases hc : p.skipSpace.rest.head? = some c
  · left
    obtain ⟨sp, hsp, hrest⟩ := p.skipSpace_cases
    obtain ⟨t, ht⟩ : ∃ t, p.skipSpace.rest = c :: t := by
      cases hcase : p.skipSpace.rest with
      | nil => simp [hcase] at hc
      | cons d t =>
        rw [hcase, List.head?_cons, Option.some.injEq] at hc
        exact ⟨t, by rw [hc]⟩
    refine ⟨sp, t, hsp, ht ▸ hrest, ?_⟩
    rw [eat, ht, List.head?_cons, if_pos rfl, List.tail_cons]
    rfl
  · right
    exact ⟨hc, by simp [eat, hc]⟩

theorem eat_true (h : (p.eat c).1 = true) :
    (p.eat c).2.failed = p.failed ∧ ∃ sp, Spaces sp ∧ p.rest = sp ++ c :: (p.eat c).2.rest := by
  obtain ⟨sp, t, hsp, hrest, heat⟩ | ⟨-, heat⟩ := p.eat_cases c
  · rw [heat]
    exact ⟨rfl, sp, hsp, hrest⟩
  · rw [heat] at h
    contradiction

theorem eat_false (h : ¬ (p.eat c).1 = true) : (p.eat c).2 = p.skipSpace := by
  obtain ⟨sp, t, -, -, heat⟩ | ⟨-, heat⟩ := p.eat_cases c
  · rw [heat] at h
    contradiction
  · rw [heat]

theorem callee_rest (name : Bytes) (p : Parser) : (callee name p).2.rest = p.rest := by
  unfold callee
  split <;> rfl

theorem eat_callee (name : Bytes) (h : p.skipSpace.rest.head? = some 40) :
    ((callee name p.skipSpace).2.eat 40).1 = true := by
  obtain ⟨sp, t, -, -, heat⟩ | ⟨hne, -⟩ := (callee name p.skipSpace).2.eat_cases 40
  · rw [heat]
  · rw [skipSpace_rest, callee_rest, ← skipSpace_rest, skipSpace_skipSpace] at hne
    exact absurd h hne

/-! ## Spaces in front -/

section

variable (n : ℕ) (p : Parser)

theorem named_skipSpace : named n p.skipSpace = named n p := by
  cases n with
  | zero => rw [named, named]
  | succ n => rw [named, named, word, word, skipSpace_skipSpace]

theorem factor_skipSpace : factor n p.skipSpace = factor n p := by
  cases n with
  | zero => rw [factor, factor]
  | succ n => rw [factor, factor, skipSpace_skipSpace]

theorem product_skipSpace : product n p.skipSpace = product n p := by
  cases n with
  | zero => rw [product, product]
  | succ n => rw [product, product, factor_skipSpace]

theorem sum_skipSpace : sum n p.skipSpace = sum n p := by
  cases n with
  | zero => rw [sum, sum]
  | succ n => rw [sum, sum, product_skipSpace]

theorem arguments_skipSpace : arguments n p.skipSpace = arguments n p := by
  cases n with
  | zero => rw [arguments, arguments]
  | succ n => rw [arguments, arguments, sum_skipSpace]

end

/-! ## What is left gets shorter -/

theorem skipSpace_length (p : Parser) : p.skipSpace.rest.length ≤ p.rest.length :=
  List.length_dropWhile_le _ _

theorem eat_length_lt (h : (p.eat c).1 = true) : (p.eat c).2.rest.length < p.rest.length := by
  obtain ⟨-, sp, -, hrest⟩ := eat_true h
  rw [hrest, List.length_append, List.length_cons]
  omega

theorem eat_length (c : UInt8) (p : Parser) : (p.eat c).2.rest.length ≤ p.rest.length := by
  by_cases h : (p.eat c).1 = true
  · exact (eat_length_lt h).le
  · rw [eat_false h]
    exact p.skipSpace_length

theorem close_length (c : UInt8) (p : Parser) : (p.close c).rest.length ≤ p.rest.length := by
  have hle := p.eat_length c
  unfold close
  split_ifs
  · exact hle
  · exact hle

theorem word_length (p : Parser) : p.word.2.rest.length ≤ p.rest.length :=
  (List.length_dropWhile_le _ _).trans p.skipSpace_length

end Parser

end Bedrock
end AxisEngine
