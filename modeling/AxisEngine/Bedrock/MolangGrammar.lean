import AxisEngine.Bedrock.Molang

/-!
# MolangGrammar — what the parser of expressions accepts

* `Expr` — trees with the unary plus, which the nodes do not have;
* `Prints` — the ways to write a tree: at a level of the grammar, with any spaces, in any letter
  case, and with parentheses where they are needed, or anywhere;
* `Took` — what was read without a mistake is written so;
* `Readable` — what is written so is read back;
* `parse_iff` — both together.
-/

namespace AxisEngine
namespace Bedrock

open Lib

inductive Sign
  | plus | minus

def Sign.char : Sign → UInt8
  | .plus => 43
  | .minus => 45

/-- A plus leaves no node. -/
def Sign.node : Sign → Node → Node
  | .plus, arg => arg
  | .minus, arg => .neg arg

inductive Expr
  | number (lexeme : Bytes)
  | animTime
  | signed (sign : Sign) (arg : Expr)
  | binary (op : Op) (left right : Expr)
  | call (func : Func) (args : List Expr)

def Op.level : Op → ℕ
  | .add => 0
  | .sub => 0
  | .mul => 1
  | .div => 1

namespace Expr

mutual

/-- The tree without its unary pluses. -/
def node : Expr → Node
  | .number lexeme => .number lexeme
  | .animTime => .animTime
  | .signed sign arg => sign.node arg.node
  | .binary op left right => .binary op left.node right.node
  | .call func args => .call func (nodes args)

def nodes : List Expr → List Node
  | [] => []
  | arg :: args => arg.node :: nodes args

end

/-- Sums are level 0, products 1, and all else is level 2. -/
def level : Expr → ℕ
  | .binary op _ _ => op.level
  | _ => 2

end Expr

/-- An expression at a level, or the arguments of a call. -/
inductive Place
  | level (l : ℕ)
  | args

/-- `extra`: parentheses may also stand where they are not needed. -/
inductive Prints (extra : Prop) : Place → List Expr → Bytes → Prop
  | number {l : ℕ} {sp lexeme : Bytes} (hl : l ≤ 2) (hsp : Spaces sp) (hne : lexeme ≠ [])
      (hlexeme : ∀ c ∈ lexeme, isNumberChar c) :
      Prints extra (.level l) [.number lexeme] (sp ++ lexeme)
  | animTime {l : ℕ} {sp name : Bytes} (hl : l ≤ 2) (hsp : Spaces sp)
      (hname : name.map lower ∈ animTimeNames) :
      Prints extra (.level l) [.animTime] (sp ++ name)
  | signed {l : ℕ} {sp s : Bytes} {e : Expr} (sign : Sign) (hl : l ≤ 2) (hsp : Spaces sp)
      (h : Prints extra (.level 2) [e] s) :
      Prints extra (.level l) [.signed sign e] (sp ++ sign.char :: s)
  | binary {l : ℕ} {sp s t : Bytes} {a b : Expr} (op : Op) (hl : l ≤ op.level) (hsp : Spaces sp)
      (ha : Prints extra (.level op.level) [a] s)
      (hb : Prints extra (.level (op.level + 1)) [b] t) :
      Prints extra (.level l) [.binary op a b] (s ++ (sp ++ op.char :: t))
  | parens {l : ℕ} {sp sp' s : Bytes} {e : Expr} (hl : l ≤ 2) (hneeded : extra ∨ e.level < l)
      (hsp : Spaces sp) (hsp' : Spaces sp') (h : Prints extra (.level 0) [e] s) :
      Prints extra (.level l) [e] (sp ++ 40 :: (s ++ (sp' ++ [41])))
  | callNone {l : ℕ} {sp sp' sp'' name : Bytes} {func : Func} (hl : l ≤ 2) (hsp : Spaces sp)
      (hsp' : Spaces sp') (hsp'' : Spaces sp'') (hname : funcByName (name.map lower) = some func) :
      Prints extra (.level l) [.call func []] (sp ++ (name ++ (sp' ++ 40 :: (sp'' ++ [41]))))
  | call {l : ℕ} {sp sp' sp'' name s : Bytes} {func : Func} {args : List Expr} (hl : l ≤ 2)
      (hsp : Spaces sp) (hsp' : Spaces sp') (hsp'' : Spaces sp'')
      (hname : funcByName (name.map lower) = some func) (h : Prints extra .args args s) :
      Prints extra (.level l) [.call func args]
        (sp ++ (name ++ (sp' ++ 40 :: (s ++ (sp'' ++ [41])))))
  | single {s : Bytes} {e : Expr} (h : Prints extra (.level 0) [e] s) : Prints extra .args [e] s
  | comma {sp s t : Bytes} {e : Expr} {args : List Expr} (hsp : Spaces sp)
      (h : Prints extra (.level 0) [e] s) (hargs : Prints extra .args args t) :
      Prints extra .args (e :: args) (s ++ (sp ++ 44 :: t))

/-- A whole text: the tree, and perhaps a semicolon. -/
def IsPrint (extra : Prop) (e : Expr) (s : Bytes) : Prop :=
  ∃ body sp semicolon sp', Prints extra (.level 0) [e] body ∧ Spaces sp ∧ Spaces sp' ∧
    (semicolon = [] ∨ semicolon = [59]) ∧ s = body ++ (sp ++ (semicolon ++ sp'))

variable {s sp t u : Bytes} {l n k : ℕ} {op op' : Op} {left : Node} {p : Parser} {e : Expr}

theorem Spaces.append {sp sp' : Bytes} (h : Spaces sp) (h' : Spaces sp') : Spaces (sp ++ sp') := by
  intro c hc
  rcases List.mem_append.1 hc with hc | hc
  · exact h c hc
  · exact h' c hc

theorem Spaces.nil : Spaces [] := by
  intro c hc
  cases hc

/-- Sums, products and factors. -/
def Parser.atLevel : ℕ → ℕ → Parser → Option (Node × Parser)
  | 0 => sum
  | 1 => product
  | _ + 2 => factor

def Parser.loopAt : ℕ → (Parser → Option (Node × Parser)) → ℕ → Node → Parser →
    Option (Node × Parser)
  | 0 => chain .add .sub
  | _ + 1 => chain .mul .div

theorem Parser.atLevel_zero (l : ℕ) (p : Parser) : atLevel l 0 p = none := by
  match l with
  | 0 => rw [atLevel, sum]
  | 1 => rw [atLevel, product]
  | l + 2 => rw [atLevel, factor]

theorem Parser.atLevel_succ (hl : l ≤ 1) (n : ℕ) (p : Parser) :
    atLevel l (n + 1) p = (atLevel (l + 1) n p).bind fun r =>
      loopAt l (atLevel (l + 1) n) (r.2.rest.length + 1) r.1 r.2 := by
  match l with
  | 0 => rw [atLevel, sum]; rfl
  | 1 => rw [atLevel, product]; rfl

/-! ## Nothing else is taken -/

theorem Prints.lower (h : Prints True (.level l) [e] s) {l' : ℕ} (hl' : l' ≤ l) :
    Prints True (.level l') [e] s := by
  cases h with
  | number hl hsp hne hlexeme => exact .number (hl'.trans hl) hsp hne hlexeme
  | animTime hl hsp hname => exact .animTime (hl'.trans hl) hsp hname
  | signed sign hl hsp h => exact .signed sign (hl'.trans hl) hsp h
  | binary op hl hsp ha hb => exact .binary op (hl'.trans hl) hsp ha hb
  | parens hl hneeded hsp hsp' h => exact .parens (hl'.trans hl) (.inl trivial) hsp hsp' h
  | callNone hl hsp hsp' hsp'' hname => exact .callNone (hl'.trans hl) hsp hsp' hsp'' hname
  | call hl hsp hsp' hsp'' hname h => exact .call (hl'.trans hl) hsp hsp' hsp'' hname h

/-- What was read of `s` is a tree, the result. -/
def Took (l : ℕ) (s : Bytes) (r : Node × Parser) : Prop :=
  ∃ e body sp, Prints True (.level l) [e] body ∧ Spaces sp ∧ s = body ++ (sp ++ r.2.rest) ∧
    r.1 = e.node

def TookArgs (s : Bytes) (r : List Node × Parser) : Prop :=
  ∃ args body sp, Prints True .args args body ∧ Spaces sp ∧ s = body ++ (sp ++ 41 :: r.2.rest) ∧
    r.1 = Expr.nodes args

/-- There is a result, and no more is left than there was.  Without a mistake there was none before,
and the result is as it should be. -/
def Reads {α : Type} (good : α × Parser → Prop) (p : Parser) (result : Option (α × Parser)) : Prop :=
  ∃ r, result = some r ∧ r.2.rest.length ≤ p.rest.length ∧
    (r.2.failed = false → p.failed = false ∧ good r)

namespace Took

variable {r : Node × Parser}

theorem lower (h : Took (l + 1) s r) : Took l s r := by
  obtain ⟨e, body, sp, hprints, hrest⟩ := h
  exact ⟨e, body, sp, hprints.lower l.le_succ, hrest⟩

theorem skipSpace (h : Took l s (left, p)) : Took l s (left, p.skipSpace) := by
  obtain ⟨e, body, sp, hprints, hsp, hs, hnode⟩ := h
  obtain ⟨sp', hsp', hrest⟩ := p.skipSpace_cases
  refine ⟨e, body, sp ++ sp', hprints, hsp.append hsp', ?_, hnode⟩
  rw [hs, List.append_assoc sp, ← hrest]

theorem binary (h : Took op.level s (left, p)) (hsp : Spaces sp)
    (hrest : p.rest = sp ++ op.char :: t) (hr : Took (op.level + 1) t r) :
    Took op.level s (.binary op left r.1, r.2) := by
  obtain ⟨a, body, spa, ha, hspa, hs, hleft⟩ := h
  obtain ⟨b, body', spb, hb, hspb, ht, hnode⟩ := hr
  refine ⟨.binary op a b, _, spb, .binary op le_rfl (hspa.append hsp) ha hb, hspb, ?_, ?_⟩
  · rw [hs, hrest, ht]
    simp only [List.append_assoc, List.cons_append]
  · rw [Expr.node, ← hleft, ← hnode]

theorem signed (sign : Sign) (hsp : Spaces sp) (hs : s = sp ++ sign.char :: t)
    (h : Took 2 t r) : Took 2 s (sign.node r.1, r.2) := by
  obtain ⟨e, body, spe, hprints, hspe, ht, hnode⟩ := h
  refine ⟨.signed sign e, _, spe, .signed sign le_rfl hsp hprints, hspe, ?_, ?_⟩
  · rw [hs, ht]
    simp only [List.append_assoc, List.cons_append]
  · rw [Expr.node, ← hnode]

theorem parens {sp' : Bytes} {q : Parser} (hsp : Spaces sp) (hs : s = sp ++ 40 :: t)
    (h : Took 0 t r) (hsp' : Spaces sp') (hrest : r.2.rest = sp' ++ 41 :: q.rest) :
    Took 2 s (r.1, q) := by
  obtain ⟨e, body, spe, hprints, hspe, ht, hnode⟩ := h
  refine ⟨e, _, [], .parens le_rfl (.inl trivial) hsp (hspe.append hsp') hprints, .nil, ?_, hnode⟩
  rw [hs, ht, hrest]
  simp only [List.append_assoc, List.cons_append, List.nil_append]

end Took

namespace Parser

theorem reads_chain (hop : op.level = l) (hop' : op'.level = l)
    {operand : Parser → Option (Node × Parser)} : ∀ (k : ℕ) (left : Node) (p : Parser),
      p.rest.length < k →
      (∀ q, q.rest.length < p.rest.length → Reads (Took (l + 1) q.rest) q (operand q)) →
      Reads (fun r => ∀ s, Took l s (left, p) → Took l s r) p (chain op op' operand k left p) := by
  intro k
  induction k with
  | zero =>
    intro left p hk
    omega
  | succ k ih =>
    intro left p hk hoperand
    have hskip := p.skipSpace_length
    have hnext : ∀ o : Op, o.level = l → (p.skipSpace.eat o.char).1 = true →
        Reads (fun r => ∀ s, Took l s (left, p) → Took l s r) p
          ((operand (p.skipSpace.eat o.char).2).bind fun r =>
            chain op op' operand k (.binary o left r.1) r.2) := by
      intro o ho heat
      have hlt := eat_length_lt heat
      obtain ⟨hsame, sp, hsp, hrest⟩ := eat_true heat
      obtain ⟨r, hr, hle, htook⟩ := hoperand _ (hlt.trans_le hskip)
      obtain ⟨r', hr', hle', htook'⟩ := ih (.binary o left r.1) r.2 (by omega) fun q hq =>
        hoperand q (by omega)
      refine ⟨r', by rw [hr, Option.bind_some, hr'], by omega, fun hok => ?_⟩
      obtain ⟨hok, hthen⟩ := htook' hok
      obtain ⟨hok, htook⟩ := htook hok
      subst ho
      exact ⟨hsame.symm.trans hok, fun s hs => hthen s (hs.skipSpace.binary hsp hrest htook)⟩
    rw [chain]
    split_ifs with heat heat'
    · exact hnext op hop heat
    · exact hnext op' hop' heat'
    · exact ⟨_, rfl, hskip, fun hok => ⟨hok, fun s hs => hs.skipSpace⟩⟩

/-- With fuel for a text of the length of this one. -/
structure ReadsAt (n : ℕ) : Prop where
  level (l : ℕ) (hl : l ≤ 2) (p : Parser) (h : 6 * p.rest.length + 4 ≤ n + l) :
    Reads (Took l p.rest) p (atLevel l n p)
  named (p : Parser) (h : 6 * p.rest.length + 1 ≤ n) : Reads (Took 2 p.rest) p (named n p)
  arguments (p : Parser) (h : 6 * p.rest.length + 5 ≤ n) :
    Reads (TookArgs p.rest) p (arguments n p)

theorem close_cases {c : UInt8} (h : (p.close c).failed = false) :
    p.failed = false ∧ ∃ sp, Spaces sp ∧ p.rest = sp ++ c :: (p.close c).rest := by
  obtain ⟨sp, t, hsp, hrest, heat⟩ | ⟨-, heat⟩ := p.eat_cases c
  · rw [close, heat, if_pos rfl] at h ⊢
    exact ⟨h, sp, hsp, hrest⟩
  · rw [close, heat, if_neg Bool.false_ne_true] at h
    contradiction

theorem callee_cases (name : Bytes) (p : Parser) (h : (callee name p).2.failed = false) :
    funcByName name = some (callee name p).1 ∧ (callee name p).2 = p := by
  unfold callee at h ⊢
  cases hname : funcByName name with
  | some func => exact ⟨rfl, rfl⟩
  | none =>
    rw [hname] at h
    contradiction

namespace ReadsAt

theorem level_succ (ih : ReadsAt n) (hl : l ≤ 1) (p : Parser)
    (h : 6 * p.rest.length + 4 ≤ n + 1 + l) :
    Reads (Took l p.rest) p (atLevel l (n + 1) p) := by
  obtain ⟨r, hr, hle, htook⟩ := ih.level (l + 1) (by omega) p (by omega)
  have hloop : Reads (fun r' => ∀ s, Took l s (r.1, r.2) → Took l s r') r.2
      (loopAt l (atLevel (l + 1) n) (r.2.rest.length + 1) r.1 r.2) := by
    match l, hl with
    | 0, _ => exact reads_chain (l := 0) rfl rfl _ _ _ (Nat.lt_succ_self _) fun q hq =>
      ih.level 1 (by decide) q (by omega)
    | 1, _ => exact reads_chain (l := 1) rfl rfl _ _ _ (Nat.lt_succ_self _) fun q hq =>
      ih.level 2 le_rfl q (by omega)
  obtain ⟨r', hr', hle', htook'⟩ := hloop
  rw [atLevel_succ hl]
  refine ⟨r', by rw [hr, Option.bind_some, hr'], hle'.trans hle, fun hok => ?_⟩
  obtain ⟨hok, hthen⟩ := htook' hok
  obtain ⟨hok, htook⟩ := htook hok
  exact ⟨hok, hthen _ htook.lower⟩

theorem arguments_succ (ih : ReadsAt n) (p : Parser) (h : 6 * p.rest.length + 5 ≤ n + 1) :
    Reads (TookArgs p.rest) p (Parser.arguments (n + 1) p) := by
  obtain ⟨r, hr, hle, htook⟩ := ih.level 0 (by decide) p (by omega)
  have hsum : Parser.sum n p = some r := hr
  have hskip := r.2.skipSpace_length
  rw [Parser.arguments, hsum, Option.bind_some]
  dsimp only
  split_ifs with hcomma
  · have hlt := eat_length_lt hcomma
    obtain ⟨rs, hrs, hle', htook'⟩ := ih.arguments (r.2.skipSpace.eat 44).2 (by omega)
    refine ⟨_, by rw [hrs, Option.map_some], by dsimp only; omega, fun hok => ?_⟩
    obtain ⟨hok, args, body, sp, hargs, hsp, hrest, hnodes⟩ := htook' hok
    obtain ⟨hsame, spc, hspc, hcomma'⟩ := eat_true hcomma
    obtain ⟨hok, htook⟩ := htook (hsame.symm.trans hok)
    obtain ⟨e, body', spe, hprints, hspe, hbody, hnode⟩ := htook.skipSpace
    refine ⟨hok, e :: args, _, sp, .comma (hspe.append hspc) hprints hargs, hsp, ?_, ?_⟩
    · rw [hbody, hcomma', hrest]
      simp only [List.append_assoc, List.cons_append]
    · rw [Expr.nodes, ← hnode, ← hnodes]
  · have hclose := r.2.skipSpace.close_length 41
    rw [eat_false hcomma, skipSpace_skipSpace]
    refine ⟨_, rfl, by dsimp only; omega, fun hok => ?_⟩
    obtain ⟨hok, spc, hspc, hclose⟩ := close_cases hok
    obtain ⟨hok, htook⟩ := htook hok
    obtain ⟨e, body, spe, hprints, hspe, hbody, hnode⟩ := htook.skipSpace
    refine ⟨hok, [e], _, spe ++ spc, .single hprints, hspe.append hspc, ?_, ?_⟩
    · rw [hbody, hclose, List.append_assoc spe]
    · rw [Expr.nodes, Expr.nodes, ← hnode]

theorem named_succ (ih : ReadsAt n) (p : Parser) (h : 6 * p.rest.length + 1 ≤ n + 1) :
    Reads (Took 2 p.rest) p (Parser.named (n + 1) p) := by
  have hlength := p.word_length
  have hlength' := p.word.2.skipSpace_length
  obtain ⟨sp, hsp, hskip⟩ := p.skipSpace_cases
  obtain ⟨sp', hsp', hskip'⟩ := p.word.2.skipSpace_cases
  have hword : p.rest = sp ++ (p.skipSpace.rest.takeWhile isWordChar ++ p.word.2.rest) := by
    rw [hskip]
    exact congrArg _ List.takeWhile_append_dropWhile.symm
  rw [Parser.named]
  dsimp only
  split_ifs with hname hparens hmem hnone
  · exact ⟨_, rfl, hlength, fun hok => Bool.noConfusion hok⟩
  · refine ⟨_, rfl, hlength'.trans hlength, fun hok => ⟨hok, .animTime, _, sp',
      .animTime le_rfl hsp hmem, hsp', ?_, rfl⟩⟩
    rw [hword, hskip', List.append_assoc]
  · exact ⟨_, rfl, hlength'.trans hlength, fun hok => Bool.noConfusion hok⟩
  all_goals
    have heat := eat_callee p.word.1 (not_not.1 hparens)
    have hlt := eat_length_lt heat
    obtain ⟨hsame, sp₁, hsp₁, hopen⟩ := eat_true heat
    have hcallee := callee_cases p.word.1 p.word.2.skipSpace
    generalize ((callee p.word.1 p.word.2.skipSpace).2.eat 40).2 = q at hsame hopen hlt hnone ⊢
    rw [callee_rest] at hopen hlt
    have hlength₁ := q.skipSpace_length
  · have hlength₂ := q.skipSpace.eat_length 41
    refine ⟨_, rfl, by dsimp only; omega, fun hok => ?_⟩
    obtain ⟨hsame', sp₂, hsp₂, hclose⟩ := eat_true hnone
    obtain ⟨sp₃, hsp₃, hskip₃⟩ := q.skipSpace_cases
    obtain ⟨hfunc, hp⟩ := hcallee (hsame.symm.trans (hsame'.symm.trans hok))
    rw [hp] at hsame
    refine ⟨hsame.symm.trans (hsame'.symm.trans hok), .call _ [], _, [],
      .callNone le_rfl hsp (hsp'.append hsp₁) (hsp₃.append hsp₂) hfunc, .nil, ?_, rfl⟩
    rw [hword, hskip', hopen, hskip₃, hclose]
    simp only [List.append_assoc, List.cons_append, List.nil_append]
  · rw [eat_false hnone, skipSpace_skipSpace, arguments_skipSpace]
    obtain ⟨rs, hrs, hle, htook⟩ := ih.arguments q (by omega)
    refine ⟨_, by rw [hrs, Option.map_some], by dsimp only; omega, fun hok => ?_⟩
    obtain ⟨hok, args, body, sp₂, hargs, hsp₂, hclose, hnodes⟩ := htook hok
    obtain ⟨hfunc, hp⟩ := hcallee (hsame.symm.trans hok)
    rw [hp] at hsame
    refine ⟨hsame.symm.trans hok, .call _ args, _, [],
      .call le_rfl hsp (hsp'.append hsp₁) hsp₂ hfunc hargs, .nil, ?_, by rw [Expr.node, hnodes]⟩
    rw [hword, hskip', hopen, hclose]
    simp only [List.append_assoc, List.cons_append, List.nil_append]

theorem factor_succ (ih : ReadsAt n) (p : Parser) (h : 6 * p.rest.length + 2 ≤ n + 1) :
    Reads (Took 2 p.rest) p (Parser.factor (n + 1) p) := by
  have hlength := p.skipSpace_length
  obtain ⟨sp, hsp, hskip⟩ := p.skipSpace_cases
  have hsame : p.skipSpace.failed = p.failed := rfl
  have hnamed : Parser.named n p.skipSpace = Parser.named n p := named_skipSpace n p
  rw [Parser.factor]
  generalize p.skipSpace = p' at hlength hskip hsame hnamed ⊢
  cases hrest : p'.rest with
  | nil => exact ⟨_, rfl, hlength, fun hok => Bool.noConfusion hok⟩
  | cons c t =>
    dsimp only
    have hsigned : ∀ sign : Sign, (p'.eat sign.char).1 = true →
        ∃ r, Parser.factor n (p'.eat sign.char).2 = some r ∧ r.2.rest.length ≤ p.rest.length ∧
          (r.2.failed = false → p.failed = false ∧ Took 2 p.rest (sign.node r.1, r.2)) := by
      intro sign heat
      have hlt := eat_length_lt heat
      obtain ⟨r, hr, hle, htook⟩ := ih.level 2 le_rfl (p'.eat sign.char).2 (by omega)
      refine ⟨r, hr, by omega, fun hok => ?_⟩
      obtain ⟨hok, htook⟩ := htook hok
      obtain ⟨hsame', sp', hsp', hrest'⟩ := eat_true heat
      rw [hrest'] at hskip
      exact ⟨hsame.symm.trans (hsame'.symm.trans hok), htook.signed sign (hsp.append hsp')
        (hskip.trans (List.append_assoc _ _ _).symm)⟩
    split_ifs with hneg hplus hparens hnumber
    · obtain ⟨r, hr, hle, htook⟩ := hsigned .minus hneg
      have hr : Parser.factor n (p'.eat 45).2 = some r := hr
      exact ⟨(.neg r.1, r.2), by rw [hr, Option.map_some], hle, htook⟩
    · exact hsigned .plus hplus
    · have hlt := eat_length_lt hparens
      obtain ⟨r, hr, hle, htook⟩ := ih.level 0 (by decide) (p'.eat 40).2 (by omega)
      have hr : Parser.sum n (p'.eat 40).2 = some r := hr
      have hclose := r.2.close_length 41
      refine ⟨_, by rw [hr, Option.map_some], by dsimp only; omega, fun hok => ?_⟩
      obtain ⟨hok, spc, hspc, hclose⟩ := close_cases hok
      obtain ⟨hok, htook⟩ := htook hok
      obtain ⟨hsame', sp', hsp', hrest'⟩ := eat_true hparens
      rw [hrest'] at hskip
      exact ⟨hsame.symm.trans (hsame'.symm.trans hok), htook.parens (hsp.append hsp')
        (hskip.trans (List.append_assoc _ _ _).symm) hspc hclose⟩
    · refine ⟨_, rfl, (List.length_dropWhile_le _ _).trans hlength, fun hok =>
        ⟨hsame.symm.trans hok, .number (p'.rest.takeWhile isNumberChar), _, [],
          .number le_rfl hsp ?_ fun d hd => List.mem_takeWhile_imp hd, .nil, ?_, rfl⟩⟩
      · rw [hrest, List.takeWhile_cons, if_pos hnumber]
        exact List.cons_ne_nil _ _
      · rw [hskip, List.append_assoc, List.nil_append]
        exact congrArg _ List.takeWhile_append_dropWhile.symm
    · rw [hnamed]
      exact ih.named p (by omega)

end ReadsAt

theorem readsAt (n : ℕ) : ReadsAt n := by
  induction n with
  | zero => constructor <;> intros <;> omega
  | succ n ih =>
    refine ⟨fun l hl p h => ?_, ih.named_succ, ih.arguments_succ⟩
    match l, hl with
    | 0, _ => exact ih.level_succ (by decide) p h
    | 1, _ => exact ih.level_succ le_rfl p h
    | 2, _ => exact ih.factor_succ p (by omega)

end Parser

variable {f : Bool} {c : UInt8}

/-! ## What is written is read back -/

/-- What may stand behind an expression: an operator below the level, or what closes. -/
def Follows (l : ℕ) (t : Bytes) : Prop :=
  ∀ c ∈ (t.dropWhile isSpace).head?, c ∈ [41, 44, 59] ∨ ∃ op : Op, c = op.char ∧ op.level < l

theorem Follows.mono {l' : ℕ} (h : Follows l t) (hl : l ≤ l') : Follows l' t := by
  intro c hc
  rcases h c hc with hclose | ⟨op, hop, hlt⟩
  · exact .inl hclose
  · exact .inr ⟨op, hop, by omega⟩

theorem isSpace_of_isWordChar (h : isWordChar c = true) : isSpace c = false := by
  simp only [isWordChar, isLetter, isDigit, isSpace, Bool.or_eq_true, Bool.and_eq_true,
    decide_eq_true_eq, Bool.or_eq_false_iff, Bool.and_eq_false_iff, decide_eq_false_iff_not,
    UInt8.le_iff_toNat_le, ← UInt8.toNat_inj, UInt8.reduceToNat] at h ⊢
  omega

theorem dropWhile_spaces (hsp : Spaces sp) (hc : isSpace c = false) :
    (sp ++ c :: t).dropWhile isSpace = c :: t := by
  rw [List.dropWhile_append_of_pos hsp, List.dropWhile_cons_of_neg (by simp [hc])]

theorem isSpace_op (op : Op) : isSpace op.char = false := by
  cases op <;> decide

theorem Follows.operator (hsp : Spaces sp) (hl : op.level < l) : Follows l (sp ++ op.char :: t) := by
  intro c hc
  rw [dropWhile_spaces hsp (isSpace_op op)] at hc
  exact .inr ⟨op, (Option.some.inj hc).symm, hl⟩

theorem Follows.close (hsp : Spaces sp) (hspace : isSpace c = false) (hc : c ∈ [41, 44, 59]) :
    Follows l (sp ++ c :: t) := by
  intro d hd
  rw [dropWhile_spaces hsp hspace] at hd
  exact .inl (Option.some.inj hd ▸ hc)

/-- Nothing of a name or of a number goes on. -/
theorem Follows.head (h : Follows l t) (hc : t.head? = some c) : isWordChar c = false := by
  cases hword : isWordChar c with
  | false => rfl
  | true =>
    have hspace := isSpace_of_isWordChar hword
    obtain ⟨t', rfl⟩ : ∃ t', t = c :: t' := ⟨t.tail, (List.cons_head?_tail hc).symm⟩
    rw [Follows, List.dropWhile_cons_of_neg (by simp [hspace])] at h
    rcases h c rfl with hclose | ⟨op, rfl, -⟩
    · simp only [List.mem_cons, List.not_mem_nil, or_false] at hclose
      rcases hclose with rfl | rfl | rfl <;> contradiction
    · cases op <;> contradiction

theorem Follows.head_ne (h : Follows l t) (hop : l ≤ op.level) :
    (t.dropWhile isSpace).head? ≠ some op.char := by
  intro hc
  rcases h _ hc with hclose | ⟨op', hop', hlt⟩
  · cases op <;> contradiction
  · obtain rfl : op = op' := by cases op <;> cases op' <;> first | rfl | contradiction
    omega

namespace Parser

theorem skipSpace_spaces (hsp : Spaces sp) (hc : isSpace c = false) :
    skipSpace ⟨sp ++ c :: t, f⟩ = ⟨c :: t, f⟩ := by
  rw [skipSpace, dropWhile_spaces hsp hc]

theorem eat_of_skipSpace (h : p.skipSpace = ⟨c :: t, f⟩) :
    p.eat c = (true, ⟨t, f⟩) := by
  simp [eat, h]

theorem eat_ne (h : p.skipSpace.rest.head? ≠ some c) : p.eat c = (false, p.skipSpace) := by
  rw [eat, if_neg h]

variable {operand : Parser → Option (Node × Parser)} {r : Node × Parser}

theorem chain_fst (hskip : p.skipSpace = ⟨op.char :: t, f⟩)
    (h : chain op op' operand k left p = some r) :
    ∃ k r', operand ⟨t, f⟩ = some r' ∧
      chain op op' operand k (.binary op left r'.1) r'.2 = some r := by
  cases k with
  | zero =>
    rw [chain] at h
    contradiction
  | succ k =>
    have heat := eat_of_skipSpace (p.skipSpace_skipSpace.trans hskip)
    rw [chain] at h
    simp only [heat, if_true] at h
    obtain ⟨r', hr', h⟩ := Option.bind_eq_some_iff.1 h
    exact ⟨k, r', hr', h⟩

theorem chain_snd (hne : op'.char ≠ op.char) (hskip : p.skipSpace = ⟨op'.char :: t, f⟩)
    (h : chain op op' operand k left p = some r) :
    ∃ k r', operand ⟨t, f⟩ = some r' ∧
      chain op op' operand k (.binary op' left r'.1) r'.2 = some r := by
  cases k with
  | zero =>
    rw [chain] at h
    contradiction
  | succ k =>
    have hskip' := p.skipSpace_skipSpace.trans hskip
    have heat := eat_of_skipSpace hskip'
    have hnot : p.skipSpace.eat op.char = (false, p.skipSpace.skipSpace) :=
      eat_ne (by simpa [hskip'] using hne)
    rw [chain] at h
    simp only [hnot, heat, Bool.false_eq_true, if_false, if_true] at h
    obtain ⟨r', hr', h⟩ := Option.bind_eq_some_iff.1 h
    exact ⟨k, r', hr', h⟩

theorem chain_done (hop : p.skipSpace.rest.head? ≠ some op.char)
    (hop' : p.skipSpace.rest.head? ≠ some op'.char)
    (h : chain op op' operand k left p = some r) : r = (left, p.skipSpace) := by
  cases k with
  | zero =>
    rw [chain] at h
    contradiction
  | succ k =>
    have hnot : p.skipSpace.eat op.char = (false, p.skipSpace.skipSpace) := eat_ne (by simpa using hop)
    have hnot' : p.skipSpace.eat op'.char = (false, p.skipSpace.skipSpace) := eat_ne (by simpa using hop')
    rw [chain] at h
    simp only [hnot, hnot', Bool.false_eq_true, if_false] at h
    exact (Option.some.inj h).symm

theorem loopAt_op (hskip : p.skipSpace = ⟨op.char :: t, f⟩)
    (h : loopAt op.level operand k left p = some r) :
    ∃ k r', operand ⟨t, f⟩ = some r' ∧
      loopAt op.level operand k (.binary op left r'.1) r'.2 = some r := by
  cases op with
  | add => exact chain_fst hskip h
  | sub => exact chain_snd (by decide) hskip h
  | mul => exact chain_fst hskip h
  | div => exact chain_snd (by decide) hskip h

/-- The end of a loop: no operator of its level comes. -/
theorem loopAt_done (hl : l ≤ 1) (hfollows : Follows l p.rest)
    (h : loopAt l operand k left p = some r) : r = (left, p.skipSpace) := by
  match l, hl with
  | 0, _ => exact chain_done (hfollows.head_ne (Nat.zero_le _)) (hfollows.head_ne (Nat.zero_le _)) h
  | 1, _ => exact chain_done (hfollows.head_ne le_rfl) (hfollows.head_ne le_rfl) h

end Parser

/-- An expression at a level was read, and the loop goes on. -/
def Open (l : ℕ) (e : Expr) (s : Bytes) : Prop :=
  ∀ t f n r, Follows (l + 1) t → Parser.atLevel l n ⟨s ++ t, f⟩ = some r →
    ∃ m k q, q.skipSpace = ⟨t.dropWhile isSpace, f⟩ ∧
      Parser.loopAt l (Parser.atLevel (l + 1) m) k e.node q = some r

def Exact (l : ℕ) (e : Expr) (s : Bytes) : Prop :=
  ∀ t f n r, Follows l t → Parser.atLevel l n ⟨s ++ t, f⟩ = some r →
    r.1 = e.node ∧ r.2.skipSpace = ⟨t.dropWhile isSpace, f⟩

theorem Open.exact (hl : l ≤ 1) (h : Open l e s) : Exact l e s := by
  intro t f n r ht hr
  obtain ⟨m, k, q, hq, hloop⟩ := h t f n r (ht.mono l.le_succ) hr
  have hfollows : Follows l q.rest := by
    intro c hc
    rw [← Parser.skipSpace_rest, hq] at hc
    exact ht c hc
  obtain rfl := Parser.loopAt_done hl hfollows hloop
  exact ⟨rfl, by rw [Parser.skipSpace_skipSpace, hq]⟩

theorem Exact.open (hl : l ≤ 1) (h : Exact (l + 1) e s) : Open l e s := by
  intro t f n r ht hr
  cases n with
  | zero =>
    rw [Parser.atLevel_zero] at hr
    contradiction
  | succ n =>
    rw [Parser.atLevel_succ hl] at hr
    obtain ⟨r', hr', hloop⟩ := Option.bind_eq_some_iff.1 hr
    obtain ⟨hnode, hskip⟩ := h t f n r' ht hr'
    exact ⟨n, _, r'.2, hskip, hnode ▸ hloop⟩

theorem Open.binary {a b : Expr} (ha : Open op.level a s) (hsp : Spaces sp)
    (hb : Exact (op.level + 1) b t) :
    Open op.level (.binary op a b) (s ++ (sp ++ op.char :: t)) := by
  intro u f n r hu hr
  rw [List.append_assoc, List.append_assoc, List.cons_append] at hr
  obtain ⟨m, k, q, hq, hloop⟩ := ha _ f n r (.operator hsp (Nat.lt_succ_self _)) hr
  rw [dropWhile_spaces hsp (isSpace_op op)] at hq
  obtain ⟨k, r', hoperand, hloop⟩ := Parser.loopAt_op hq hloop
  obtain ⟨hnode, hskip⟩ := hb u f m r' hu hoperand
  exact ⟨m, k, r'.2, hskip, by rw [Expr.node, ← hnode]; exact hloop⟩

structure ReadableAt (l : ℕ) (e : Expr) (s : Bytes) : Prop where
  level : l ≤ 2
  opened : l ≤ 1 → Open l e s
  exact_ : Exact l e s

namespace ReadableAt

theorem of_open (hl : l ≤ 1) (h : Open l e s) : ReadableAt l e s :=
  ⟨hl.trans (by decide), fun _ => h, h.exact hl⟩

theorem of_factor (h : Exact 2 e s) : ReadableAt 2 e s :=
  ⟨le_rfl, fun hl => absurd hl (by decide), h⟩

theorem lower {l' : ℕ} (h : ReadableAt l' e s) (hl : l ≤ l') : ReadableAt l e s := by
  induction hl with
  | refl => exact h
  | step hl ih =>
    have hle := h.level
    exact ih (of_open (by omega) (h.exact_.open (by omega)))

end ReadableAt

/-! ## The forms of a factor -/

def isName : Bytes → Bool
  | [] => false
  | c :: name => isLetter c && name.all isWordChar

theorem isName_ascii {cs : List Char} (h : isName (cs.map fun c => UInt8.ofNat c.toNat) = true) :
    isName (ascii (String.ofList cs)) = true := by
  rw [ascii_ofList]
  exact h

theorem isName_animTime {name : Bytes} (h : name ∈ animTimeNames) : isName name = true := by
  revert name
  simp only [animTimeNames, List.forall_mem_cons]
  exact ⟨isName_ascii rfl, isName_ascii rfl, isName_ascii rfl, by simp⟩

theorem isName_func {name : Bytes} {func : Func} (h : funcByName name = some func) :
    isName name = true := by
  have hall : ∀ entry ∈ funcTable, isName entry.1 = true := by
    simp only [funcTable, List.forall_mem_cons]
    exact ⟨isName_ascii rfl, isName_ascii rfl, isName_ascii rfl, isName_ascii rfl,
      isName_ascii rfl, isName_ascii rfl, isName_ascii rfl, isName_ascii rfl, isName_ascii rfl,
      isName_ascii rfl, isName_ascii rfl, isName_ascii rfl, isName_ascii rfl, isName_ascii rfl,
      isName_ascii rfl, isName_ascii rfl, by simp⟩
  obtain ⟨entry, hfind, -⟩ := Option.map_eq_some_iff.1 h
  have heq := List.find?_some hfind
  rw [decide_eq_true_eq] at heq
  exact heq ▸ hall entry (List.mem_of_find?_eq_some hfind)

theorem isLetter_of_lower (h : isLetter (lower c) = true) : isLetter c = true := by
  unfold lower at h
  split_ifs at h with hupper
  · simp [isLetter, hupper]
  · exact h

theorem isWordChar_of_lower (h : isWordChar (lower c) = true) : isWordChar c = true := by
  unfold lower at h
  split_ifs at h with hupper
  · simp [isWordChar, isLetter, hupper]
  · exact h

theorem name_cases {name : Bytes} (h : isName (name.map lower) = true) :
    ∃ c name', name = c :: name' ∧ isLetter c = true ∧ ∀ d ∈ name, isWordChar d := by
  cases name with
  | nil => contradiction
  | cons c name =>
    rw [List.map_cons, isName, Bool.and_eq_true] at h
    have hletter := isLetter_of_lower h.1
    refine ⟨c, name, rfl, hletter, List.forall_mem_cons.2 ⟨?_, fun d hd => ?_⟩⟩
    · simp [isWordChar, hletter]
    · exact isWordChar_of_lower (List.all_eq_true.1 h.2 _ (List.mem_map_of_mem hd))

theorem span_append {P : UInt8 → Bool} (hs : ∀ c ∈ s, P c) (ht : ∀ c, t.head? = some c → P c = false) :
    (s ++ t).takeWhile P = s ∧ (s ++ t).dropWhile P = t := by
  rw [List.takeWhile_append_of_pos hs, List.dropWhile_append_of_pos hs]
  cases t with
  | nil => simp
  | cons c t =>
    have hc := ht c rfl
    simp [hc]

namespace Parser

theorem eat_cons {d : UInt8} (hc : isSpace c = false) :
    eat d ⟨c :: t, f⟩ = if c = d then (true, ⟨t, f⟩) else (false, ⟨c :: t, f⟩) := by
  simp [eat, skipSpace, hc]

theorem factor_cons (hsp : Spaces sp) (hc : isSpace c = false) :
    factor (n + 1) ⟨sp ++ c :: t, f⟩ = if c = 45 then (factor n ⟨t, f⟩).map fun r => (.neg r.1, r.2)
      else if c = 43 then factor n ⟨t, f⟩
      else if c = 40 then (sum n ⟨t, f⟩).map fun r => (r.1, r.2.close 41)
      else if isNumberChar c then some (number ⟨c :: t, f⟩)
      else named n ⟨c :: t, f⟩ := by
  rw [factor, skipSpace_spaces hsp hc]
  simp only [eat_cons hc]
  by_cases hneg : c = 45
  · simp [hneg]
  by_cases hplus : c = 43
  · simp [hplus]
  by_cases hparens : c = 40
  · simp [hparens]
  · simp [hneg, hplus, hparens]

theorem named_append {name u : Bytes} (hname : isName (name.map lower) = true)
    (hu : ∀ c, u.head? = some c → isWordChar c = false) :
    word ⟨name ++ u, f⟩ = (name.map lower, ⟨u, f⟩) := by
  obtain ⟨c, name', rfl, hletter, hall⟩ := name_cases hname
  obtain ⟨htake, hdrop⟩ := span_append (P := isWordChar) hall hu
  have hskip : skipSpace ⟨(c :: name') ++ u, f⟩ = ⟨(c :: name') ++ u, f⟩ :=
    skipSpace_spaces .nil (isSpace_of_isWordChar (hall c List.mem_cons_self))
  rw [word, hskip, htake, hdrop]

theorem letter_other (h : isLetter c = true) :
    c ≠ 45 ∧ c ≠ 43 ∧ c ≠ 40 ∧ isNumberChar c = false := by
  simp only [isLetter, isNumberChar, isDigit, Bool.or_eq_true, Bool.and_eq_true,
    decide_eq_true_eq, Bool.or_eq_false_iff, Bool.and_eq_false_iff, decide_eq_false_iff_not,
    UInt8.le_iff_toNat_le, ← UInt8.toNat_inj, UInt8.reduceToNat, ne_eq] at h ⊢
  omega

theorem number_other (h : isNumberChar c = true) :
    c ≠ 45 ∧ c ≠ 43 ∧ c ≠ 40 ∧ isWordChar c = true := by
  simp only [isNumberChar, isWordChar, isDigit, Bool.or_eq_true, Bool.and_eq_true,
    decide_eq_true_eq, UInt8.le_iff_toNat_le, ← UInt8.toNat_inj, UInt8.reduceToNat, ne_eq] at h ⊢
  omega

theorem factor_name {name u : Bytes} (hsp : Spaces sp) (hname : isName (name.map lower) = true) :
    factor (n + 1) ⟨sp ++ (name ++ u), f⟩ = named n ⟨name ++ u, f⟩ := by
  obtain ⟨c, name', rfl, hletter, hall⟩ := name_cases hname
  have hspace := isSpace_of_isWordChar (hall c List.mem_cons_self)
  rw [List.cons_append, factor_cons hsp hspace]
  obtain ⟨hneg, hplus, hparens, hnumber⟩ := letter_other hletter
  rw [if_neg hneg, if_neg hplus, if_neg hparens, hnumber, if_neg Bool.false_ne_true]

theorem spaces_head {d : UInt8} (hsp : Spaces sp) (hc : isWordChar c = false)
    (hd : (sp ++ c :: t).head? = some d) : isWordChar d = false := by
  cases sp with
  | nil => exact Option.some.inj hd ▸ hc
  | cons b sp =>
    cases hword : isWordChar d with
    | false => rfl
    | true =>
      have hspace := hsp b List.mem_cons_self
      rw [Option.some.inj hd, isSpace_of_isWordChar hword] at hspace
      contradiction

theorem named_call {name sp' u : Bytes} {func : Func} (hsp' : Spaces sp')
    (hfunc : funcByName (name.map lower) = some func) :
    named (n + 1) ⟨name ++ (sp' ++ 40 :: u), f⟩ = let p := skipSpace ⟨u, f⟩
      if (p.eat 41).1 then some (.call func [], (p.eat 41).2)
      else (arguments n (p.eat 41).2).map fun r => (.call func r.1, r.2) := by
  have hname := isName_func hfunc
  have hne : name.map lower ≠ [] := fun hnil => by rw [hnil] at hname; contradiction
  have hskip : skipSpace ⟨sp' ++ 40 :: u, f⟩ = ⟨40 :: u, f⟩ :=
    skipSpace_spaces hsp' (by decide)
  have hcallee : callee (name.map lower) ⟨40 :: u, f⟩ = (func, ⟨40 :: u, f⟩) := by
    rw [callee, hfunc]
  have heat : eat 40 ⟨40 :: u, f⟩ = (true, ⟨u, f⟩) := by
    rw [eat_cons (by decide), if_pos rfl]
  rw [named, named_append hname fun d hd => spaces_head hsp' (by decide) hd]
  simp only [hne, hskip, hcallee, heat, List.head?_cons, ne_eq, not_true_eq_false, if_false]

end Parser

namespace Exact

open Bedrock.Parser

variable {sp' sp'' name lexeme : Bytes} {func : Func} {args : List Expr}

/-- A factor takes fuel. -/
theorem of_succ (h : ∀ t f n r, Follows 2 t → factor (n + 1) ⟨s ++ t, f⟩ = some r →
    r.1 = e.node ∧ r.2.skipSpace = ⟨t.dropWhile isSpace, f⟩) : Exact 2 e s := by
  intro t f n r ht hr
  cases n with
  | zero =>
    rw [atLevel_zero] at hr
    contradiction
  | succ n => exact h t f n r ht hr

theorem number (hsp : Spaces sp) (hne : lexeme ≠ []) (hlexeme : ∀ c ∈ lexeme, isNumberChar c) :
    Exact 2 (.number lexeme) (sp ++ lexeme) := by
  refine of_succ fun t f n r ht hr => ?_
  obtain ⟨c, lexeme', rfl⟩ := List.exists_cons_of_ne_nil hne
  obtain ⟨hneg, hplus, hparens, hword⟩ := number_other (hlexeme c List.mem_cons_self)
  rw [List.append_assoc, List.cons_append, factor_cons hsp (isSpace_of_isWordChar hword),
    if_neg hneg, if_neg hplus, if_neg hparens, if_pos (hlexeme c List.mem_cons_self)] at hr
  obtain ⟨htake, hdrop⟩ := span_append (P := isNumberChar) (t := t) hlexeme fun d hd => by
    cases hnumber : isNumberChar d with
    | false => rfl
    | true => exact absurd (number_other hnumber).2.2.2 (by simp [ht.head hd])
  obtain rfl := Option.some.inj hr
  refine ⟨congrArg Node.number htake, ?_⟩
  exact congrArg (fun u => Parser.mk (u.dropWhile isSpace) f) hdrop

theorem signed (sign : Sign) (hsp : Spaces sp) (h : Exact 2 e s) :
    Exact 2 (.signed sign e) (sp ++ sign.char :: s) := by
  refine of_succ fun t f n r ht hr => ?_
  rw [List.append_assoc, List.cons_append] at hr
  cases sign with
  | plus =>
    rw [Sign.char, factor_cons hsp (by decide), if_neg (by decide), if_pos rfl] at hr
    exact h t f n r ht hr
  | minus =>
    rw [Sign.char, factor_cons hsp (by decide), if_pos rfl] at hr
    obtain ⟨r', hr', rfl⟩ := Option.map_eq_some_iff.1 hr
    obtain ⟨hnode, hskip⟩ := h t f n r' ht hr'
    exact ⟨by rw [Expr.node, Sign.node, hnode], hskip⟩

theorem parens (hsp : Spaces sp) (hsp' : Spaces sp') (h : Exact 0 e s) :
    Exact 2 e (sp ++ 40 :: (s ++ (sp' ++ [41]))) := by
  refine of_succ fun t f n r ht hr => ?_
  simp only [List.append_assoc, List.cons_append, List.nil_append] at hr
  rw [factor_cons hsp (by decide), if_neg (by decide), if_neg (by decide), if_pos rfl] at hr
  obtain ⟨r', hr', rfl⟩ := Option.map_eq_some_iff.1 hr
  obtain ⟨hnode, hskip⟩ := h (sp' ++ 41 :: t) f n r' (.close hsp' (by decide) (by decide)) hr'
  rw [dropWhile_spaces hsp' (by decide)] at hskip
  refine ⟨hnode, ?_⟩
  simp only [close, eat_of_skipSpace hskip, if_true]
  rfl

theorem animTime (hsp : Spaces sp) (hname : name.map lower ∈ animTimeNames) :
    Exact 2 .animTime (sp ++ name) := by
  refine of_succ fun t f n r ht hr => ?_
  have hisName := isName_animTime hname
  rw [List.append_assoc, factor_name hsp hisName] at hr
  cases n with
  | zero =>
    rw [named] at hr
    contradiction
  | succ n =>
    have hopen : (t.dropWhile isSpace).head? ≠ some 40 := by
      intro hc
      rcases ht 40 hc with hclose | ⟨op, hop, -⟩
      · contradiction
      · cases op <;> contradiction
    have hne : name.map lower ≠ [] := fun hnil => by rw [hnil] at hisName; contradiction
    rw [named, named_append hisName fun c hc => ht.head hc] at hr
    simp only [skipSpace, hne, hopen, hname, ne_eq, not_false_eq_true, if_true, if_false] at hr
    obtain rfl := Option.some.inj hr
    exact ⟨rfl, skipSpace_skipSpace ⟨t, f⟩⟩

theorem callNone (hsp : Spaces sp) (hsp' : Spaces sp') (hsp'' : Spaces sp'')
    (hname : funcByName (name.map lower) = some func) :
    Exact 2 (.call func []) (sp ++ (name ++ (sp' ++ 40 :: (sp'' ++ [41])))) := by
  refine of_succ fun t f n r ht hr => ?_
  simp only [List.append_assoc, List.cons_append, List.nil_append] at hr
  rw [factor_name hsp (isName_func hname)] at hr
  cases n with
  | zero =>
    rw [named] at hr
    contradiction
  | succ n =>
    rw [named_call hsp' hname, skipSpace_spaces hsp'' (by decide)] at hr
    have heat : eat 41 ⟨41 :: t, f⟩ = (true, ⟨t, f⟩) :=
      eat_of_skipSpace (skipSpace_spaces .nil (by decide))
    simp only [heat, if_true] at hr
    obtain rfl := Option.some.inj hr
    exact ⟨rfl, rfl⟩

theorem call (hsp : Spaces sp) (hsp' : Spaces sp') (hname : funcByName (name.map lower) = some func)
    (hfirst : ∃ sp c s', Spaces sp ∧ s = sp ++ c :: s' ∧ isSpace c = false ∧ c ≠ 41)
    (h : ∀ t f n r, arguments n ⟨s ++ (sp'' ++ 41 :: t), f⟩ = some r →
      r = (Expr.nodes args, ⟨t, f⟩)) :
    Exact 2 (.call func args) (sp ++ (name ++ (sp' ++ 40 :: (s ++ (sp'' ++ [41]))))) := by
  refine of_succ fun t f n r ht hr => ?_
  simp only [List.append_assoc, List.cons_append, List.nil_append] at hr
  rw [factor_name hsp (isName_func hname)] at hr
  cases n with
  | zero =>
    rw [named] at hr
    contradiction
  | succ n =>
    have heat : ¬ (eat 41 (skipSpace ⟨s ++ (sp'' ++ 41 :: t), f⟩)).1 = true := by
      obtain ⟨sp, c, s', hsp, rfl, hspace, hne⟩ := hfirst
      rw [List.append_assoc, List.cons_append, skipSpace_spaces hsp hspace, eat_cons hspace,
        if_neg hne]
      exact Bool.false_ne_true
    rw [named_call hsp' hname] at hr
    dsimp only at hr
    rw [if_neg heat, eat_false heat, skipSpace_skipSpace, arguments_skipSpace] at hr
    obtain ⟨r', hr', rfl⟩ := Option.map_eq_some_iff.1 hr
    obtain rfl := h t f n r' hr'
    exact ⟨by rw [Expr.node], rfl⟩

end Exact

theorem Prints.first {extra : Prop} {place : Place} {es : List Expr} (h : Prints extra place es s) :
    ∃ sp c s', Spaces sp ∧ s = sp ++ c :: s' ∧ isSpace c = false ∧ c ≠ 41 := by
  have hletter : ∀ {name : Bytes} (u : Bytes), isName (name.map Bedrock.lower) = true →
      ∃ c s', name ++ u = c :: s' ∧ isSpace c = false ∧ c ≠ 41 := by
    intro name u hname
    obtain ⟨c, name', rfl, -, hall⟩ := name_cases hname
    have hword := hall c List.mem_cons_self
    exact ⟨c, _, rfl, isSpace_of_isWordChar hword, fun hc => by rw [hc] at hword; contradiction⟩
  induction h with
  | number hl hsp hne hlexeme =>
    obtain ⟨c, lexeme', rfl⟩ := List.exists_cons_of_ne_nil hne
    have hword := (Parser.number_other (hlexeme c List.mem_cons_self)).2.2.2
    exact ⟨_, c, _, hsp, rfl, isSpace_of_isWordChar hword,
      fun hc => by rw [hc] at hword; contradiction⟩
  | @animTime l sp name hl hsp hname =>
    obtain ⟨c, s', hs, hc⟩ := hletter [] (isName_animTime hname)
    exact ⟨_, c, s', hsp, by rw [← hs, List.append_nil], hc⟩
  | signed sign hl hsp h =>
    exact ⟨_, sign.char, _, hsp, rfl, by cases sign <;> decide, by cases sign <;> decide⟩
  | parens hl hneeded hsp => exact ⟨_, 40, _, hsp, rfl, by decide, by decide⟩
  | callNone hl hsp hsp' hsp'' hname =>
    obtain ⟨c, s', hs, hc⟩ := hletter _ (isName_func hname)
    exact ⟨_, c, s', hsp, by rw [hs], hc⟩
  | call hl hsp hsp' hsp'' hname =>
    obtain ⟨c, s', hs, hc⟩ := hletter _ (isName_func hname)
    exact ⟨_, c, s', hsp, by rw [hs], hc⟩
  | single h ih => exact ih
  | binary op hl hsp ha hb iha ihb =>
    obtain ⟨sp, c, s', hsp, rfl, hc⟩ := iha
    exact ⟨sp, c, _, hsp, by rw [List.append_assoc, List.cons_append], hc⟩
  | comma hsp h hargs ih =>
    obtain ⟨sp, c, s', hsp, rfl, hc⟩ := ih
    exact ⟨sp, c, _, hsp, by rw [List.append_assoc, List.cons_append], hc⟩

/-- What is written is read back, whatever may follow. -/
def Readable : Place → List Expr → Bytes → Prop
  | .level l, es, s => ∀ e ∈ es, ReadableAt l e s
  | .args, es, s => ∀ sp t f n r, Spaces sp →
      Parser.arguments n ⟨s ++ (sp ++ 41 :: t), f⟩ = some r →
      r = (Expr.nodes es, ⟨t, f⟩)

theorem Readable.single (h : Exact 0 e s) : Readable .args [e] s := by
  intro sp t f n r hsp hr
  cases n with
  | zero =>
    rw [Parser.arguments] at hr
    contradiction
  | succ n =>
    rw [Parser.arguments] at hr
    obtain ⟨r', hr', hr⟩ := Option.bind_eq_some_iff.1 hr
    obtain ⟨hnode, hskip⟩ := h _ f n r' (.close hsp (by decide) (by decide)) hr'
    rw [dropWhile_spaces hsp (by decide)] at hskip
    have hcomma : Parser.eat 44 ⟨41 :: t, f⟩ = (false, ⟨41 :: t, f⟩) := by
      rw [Parser.eat_cons (by decide), if_neg (by decide)]
    have hclose : Parser.close 41 ⟨41 :: t, f⟩ = ⟨t, f⟩ := by
      rw [Parser.close, Parser.eat_cons (by decide), if_pos rfl, if_pos rfl]
    simp only [hskip, hcomma, hclose, Bool.false_eq_true, if_false] at hr
    obtain rfl := Option.some.inj hr
    rw [hnode, Expr.nodes, Expr.nodes]

theorem Readable.comma {args : List Expr} (hsp : Spaces sp) (h : Exact 0 e s)
    (hargs : Readable .args args t) : Readable .args (e :: args) (s ++ (sp ++ 44 :: t)) := by
  intro sp' u f n r hsp' hr
  cases n with
  | zero =>
    rw [Parser.arguments] at hr
    contradiction
  | succ n =>
    rw [Parser.arguments] at hr
    obtain ⟨r', hr', hr⟩ := Option.bind_eq_some_iff.1 hr
    rw [List.append_assoc, List.append_assoc, List.cons_append] at hr'
    obtain ⟨hnode, hskip⟩ := h _ f n r' (.close hsp (by decide) (by decide)) hr'
    rw [dropWhile_spaces hsp (by decide)] at hskip
    have hcomma : Parser.eat 44 ⟨44 :: (t ++ (sp' ++ 41 :: u)), f⟩ =
        (true, ⟨t ++ (sp' ++ 41 :: u), f⟩) :=
      Parser.eat_of_skipSpace (Parser.skipSpace_spaces .nil (by decide))
    simp only [hskip, hcomma, if_true] at hr
    obtain ⟨rs, hrs, rfl⟩ := Option.map_eq_some_iff.1 hr
    obtain rfl := hargs sp' u f n rs hsp' hrs
    rw [hnode, Expr.nodes]

theorem Prints.readable {extra : Prop} {place : Place} {es : List Expr}
    (h : Prints extra place es s) : Readable place es s := by
  induction h with
  | number hl hsp hne hlexeme =>
    exact List.forall_mem_singleton.2 ((ReadableAt.of_factor (.number hsp hne hlexeme)).lower hl)
  | animTime hl hsp hname =>
    exact List.forall_mem_singleton.2 ((ReadableAt.of_factor (.animTime hsp hname)).lower hl)
  | signed sign hl hsp h ih =>
    have hexact := (List.forall_mem_singleton.1 ih).exact_
    exact List.forall_mem_singleton.2 ((ReadableAt.of_factor (.signed sign hsp hexact)).lower hl)
  | binary op hl hsp ha hb iha ihb =>
    have hop : op.level ≤ 1 := by cases op <;> decide
    have hopen := ((List.forall_mem_singleton.1 iha).opened hop).binary hsp
      (List.forall_mem_singleton.1 ihb).exact_
    exact List.forall_mem_singleton.2 ((ReadableAt.of_open hop hopen).lower hl)
  | parens hl hneeded hsp hsp' h ih =>
    have hexact := (List.forall_mem_singleton.1 ih).exact_
    exact List.forall_mem_singleton.2 ((ReadableAt.of_factor (.parens hsp hsp' hexact)).lower hl)
  | callNone hl hsp hsp' hsp'' hname =>
    exact List.forall_mem_singleton.2
      ((ReadableAt.of_factor (.callNone hsp hsp' hsp'' hname)).lower hl)
  | call hl hsp hsp' hsp'' hname h ih =>
    exact List.forall_mem_singleton.2 ((ReadableAt.of_factor (.call hsp hsp' hname h.first
      fun t f n r => ih _ t f n r hsp'')).lower hl)
  | single h ih => exact .single (List.forall_mem_singleton.1 ih).exact_
  | comma hsp h hargs ih ihargs => exact .comma hsp (List.forall_mem_singleton.1 ih).exact_ ihargs

/-! ## Whole texts -/

theorem Parser.finish_failed (p : Parser) :
    p.finish.failed = false ↔ p.failed = false ∧ ∃ sp semicolon sp', Spaces sp ∧ Spaces sp' ∧
      (semicolon = [] ∨ semicolon = [59]) ∧ p.rest = sp ++ (semicolon ++ sp') := by
  have hend : ∀ q : Parser, (if q.skipSpace.rest = [] then q.skipSpace else q.skipSpace.fail).failed =
      false ↔ q.failed = false ∧ Spaces q.rest := by
    intro q
    have hnil : q.skipSpace.rest = [] ↔ Spaces q.rest := List.dropWhile_eq_nil_iff
    split_ifs with h
    · exact ⟨fun hq => ⟨hq, hnil.1 h⟩, fun hq => hq.1⟩
    · exact ⟨fun hq => Bool.noConfusion hq, fun hq => absurd (hnil.2 hq.2) h⟩
  obtain ⟨sp, hsp, hrest⟩ := p.skipSpace_cases
  rw [finish, hend]
  by_cases hsemicolon : p.skipSpace.rest.head? = some 59
  · rw [if_pos hsemicolon]
    refine and_congr Iff.rfl ⟨fun h => ⟨sp, [59], _, hsp, h, .inr rfl, ?_⟩, ?_⟩
    · exact hrest.trans (congrArg (sp ++ ·) (List.cons_head?_tail hsemicolon).symm)
    · rintro ⟨sp₁, semicolon, sp₂, hsp₁, hsp₂, rfl | rfl, h⟩
      · rw [skipSpace_rest, h, List.dropWhile_append_of_pos hsp₁, List.nil_append,
          List.dropWhile_eq_nil_iff.2 hsp₂] at hsemicolon
        contradiction
      · have hskip : p.skipSpace.rest = 59 :: sp₂ := by
          rw [skipSpace_rest, h]
          exact dropWhile_spaces hsp₁ (by decide)
        rw [hskip]
        exact hsp₂
  · rw [if_neg hsemicolon]
    refine and_congr Iff.rfl ⟨fun h => ⟨sp, [], _, hsp, h, .inl rfl, hrest⟩, ?_⟩
    rintro ⟨sp₁, semicolon, sp₂, hsp₁, hsp₂, rfl | rfl, h⟩
    · rw [skipSpace_rest, h, List.dropWhile_append_of_pos hsp₁, List.nil_append,
        List.dropWhile_eq_nil_iff.2 hsp₂]
      exact .nil
    · refine absurd ?_ hsemicolon
      rw [skipSpace_rest, h]
      exact congrArg List.head? (dropWhile_spaces hsp₁ (by decide))

theorem follows_rest {sp' semicolon : Bytes} (hsp : Spaces sp) (hsp' : Spaces sp')
    (hsemicolon : semicolon = [] ∨ semicolon = [59]) : Follows 0 (sp ++ (semicolon ++ sp')) := by
  rcases hsemicolon with rfl | rfl
  · intro c hc
    rw [List.nil_append, List.dropWhile_eq_nil_iff.2 (hsp.append hsp')] at hc
    contradiction
  · exact .close hsp (by decide) (by decide)

/-- Every text has a result.  Without a mistake the text is written as the grammar says, and what is
written so, with any parentheses or only with those that are needed, gives its tree. -/
theorem parse_iff (src : Bytes) :
    ∃ r, Parser.parse src = some r ∧ (r.2.failed = false → ∃ e, IsPrint True e src) ∧
      ∀ extra e, IsPrint extra e src → r.2.failed = false ∧ r.1 = e.node := by
  obtain ⟨r, hr, -, htook⟩ := (Parser.readsAt (Parser.fuel src)).level 0 (by decide)
    { rest := src } (by simp only [Parser.fuel]; omega)
  have hsum : Parser.sum (Parser.fuel src) { rest := src } = some r := hr
  refine ⟨(r.1, r.2.finish), by rw [Parser.parse, hsum, Option.map_some], fun hfailed => ?_, ?_⟩
  · obtain ⟨hok, sp, semicolon, sp', hsp, hsp', hsemicolon, hrest⟩ :=
      (Parser.finish_failed _).1 hfailed
    obtain ⟨-, e, body, spe, hprints, hspe, hsrc, -⟩ := htook hok
    refine ⟨e, body, spe ++ sp, semicolon, sp', hprints, hspe.append hsp, hsp', hsemicolon, ?_⟩
    rw [List.append_assoc spe, ← hrest]
    exact hsrc
  · rintro extra e ⟨body, sp, semicolon, sp', hprints, hsp, hsp', hsemicolon, rfl⟩
    have hexact := (List.forall_mem_singleton.1 hprints.readable).exact_
    obtain ⟨hnode, hskip⟩ := hexact _ false (Parser.fuel _) r (follows_rest hsp hsp' hsemicolon) hr
    have hfinish : r.2.finish = Parser.finish ⟨sp ++ (semicolon ++ sp'), false⟩ := by
      rw [Parser.finish, Parser.finish, hskip]
      rfl
    refine ⟨?_, hnode⟩
    rw [hfinish, Parser.finish_failed]
    exact ⟨rfl, sp, semicolon, sp', hsp, hsp', hsemicolon, rfl⟩

/-- Parentheses around a number are taken, and a plus in front of it leaves no trace. -/
theorem parse_not_only_needed :
    (∃ r, Parser.parse [40, 49, 41] = some r ∧ r.2.failed = false ∧
      ¬ ∃ e, IsPrint False e [40, 49, 41]) ∧
    ¬ ∃ tree : Node → Expr, ∀ e s r, IsPrint False e s → Parser.parse s = some r →
      tree r.1 = e := by
  have hnumber : ∀ l ≤ 2, Prints False (.level l) [.number [49]] [49] := fun l hl =>
    show Prints False (.level l) _ ([] ++ [49]) from
      .number hl .nil (by decide) (List.forall_mem_singleton.2 rfl)
  refine ⟨⟨(.number [49], ⟨[], false⟩), rfl, rfl, ?_⟩, ?_⟩
  · rintro ⟨e, body, sp, semicolon, sp', hprints, hsp, hsp', hsemicolon, hs⟩
    have hmem : ∀ c ∈ body, c ∈ ([40, 49, 41] : Bytes) := fun c hc => hs ▸ List.mem_append_left _ hc
    have hletter : ∀ {name : Bytes}, isName (name.map lower) = true → ¬ ∀ c ∈ name, c ∈ body := by
      intro name hname hsub
      obtain ⟨c, name', rfl, hc, -⟩ := name_cases hname
      have hthree := hmem c (hsub c List.mem_cons_self)
      simp only [List.mem_cons, List.not_mem_nil, or_false] at hthree
      rcases hthree with rfl | rfl | rfl <;> contradiction
    cases hprints with
    | @number _ spn lexeme _ hspn hne hlexeme =>
      obtain ⟨c, lexeme, rfl⟩ := List.exists_cons_of_ne_nil hne
      cases spn with
      | nil =>
        have hc := hlexeme c List.mem_cons_self
        rw [← (List.cons.inj hs).1] at hc
        contradiction
      | cons b spn =>
        have hb := hspn b List.mem_cons_self
        rw [← (List.cons.inj hs).1] at hb
        contradiction
    | animTime _ _ hname =>
      exact hletter (isName_animTime hname) fun c hc => List.mem_append_right _ hc
    | signed sign =>
      have hsign := hmem sign.char (List.mem_append_right _ List.mem_cons_self)
      cases sign <;> contradiction
    | binary op =>
      have hop := hmem op.char
        (List.mem_append_right _ (List.mem_append_right _ List.mem_cons_self))
      cases op <;> contradiction
    | parens _ hneeded => exact hneeded.elim id (Nat.not_lt_zero _)
    | callNone _ _ _ _ hname =>
      exact hletter (isName_func hname) fun c hc =>
        List.mem_append_right _ (List.mem_append_left _ hc)
    | call _ _ _ _ hname =>
      exact hletter (isName_func hname) fun c hc =>
        List.mem_append_right _ (List.mem_append_left _ hc)
  · rintro ⟨tree, htree⟩
    have hone := htree (.number [49]) [49] (.number [49], ⟨[], false⟩)
      ⟨[49], [], [], [], hnumber 0 (by decide), .nil, .nil, .inl rfl, rfl⟩ rfl
    have hsigned : Prints False (.level 0) [.signed .plus (.number [49])] ([] ++ 43 :: [49]) :=
      .signed .plus (by decide) .nil (hnumber 2 le_rfl)
    have hplus := htree (.signed .plus (.number [49])) [43, 49] (.number [49], ⟨[], false⟩)
      ⟨[43, 49], [], [], [], hsigned, .nil, .nil, .inl rfl, rfl⟩ rfl
    exact Expr.noConfusion (hone.symm.trans hplus)

end Bedrock
end AxisEngine
