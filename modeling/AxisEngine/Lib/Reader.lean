import AxisEngine.Lib.Bytes
import AxisEngine.Lib.IStream
import Mathlib.Tactic.Basic

/-!
# Reader — reading a binary format, and what reads what

A binary format is read from a stream field by field.  A field that the stream is too short for is
an error.  `Reads r bytes a` says that `r` reads exactly `bytes`, whatever follows, and gives `a`;
a format is read back when each of its fields is, since what reads two fields one after the other
reads their bytes one after the other.

* `Reader` — a computation that reads a stream or fails;
* `IStream.read`, `readU8`, `readU16`, `readU32`, `readPadded` — the fields;
* `readMany` — a counted list;
* `Reads`, `Reads.bind`, `Reads.readMany` — the rules.
-/

namespace AxisEngine
namespace Lib

/-- `std::istream::read`: at most `n` bytes, and the end of the stream when there are fewer. -/
def IStream.read (s : IStream) (n : Nat) : Bytes × IStream :=
  if s.good then
    if n ≤ s.rest.length then (s.rest.take n, { s with rest := s.rest.drop n })
    else (s.rest, { rest := [], eof := true, fail := true })
  else ([], { s with fail := true })

/-- The error is the text of the exception. -/
abbrev Reader (α : Type) := StateT IStream (Except String) α

namespace Reader

variable {α β : Type}

/-- A field of `n` bytes, decoded; missing bytes are an error. -/
def field (n : Nat) (decode : Bytes → α) : Reader α := fun s =>
  if (s.read n).2.eof then .error "EOF" else .ok (decode (s.read n).1, (s.read n).2)

def readU8 : Reader UInt8 :=
  field 1 fun d => Lib.readU8 d 0

def readU16 : Reader UInt16 :=
  field 2 fun d => Lib.readU16 d 0

def readU32 : Reader UInt32 :=
  field 4 fun d => Lib.readU32 d 0

/-- A string behind its length in 16 bits. -/
def readString : Reader Bytes := do
  let n ← readU16
  field n.toNat id

/-- `n` bytes into a buffer of zeros; fewer are no error. -/
def readPadded (n : Nat) : Reader Bytes := fun s =>
  .ok ((s.read n).1 ++ List.replicate (n - (s.read n).1.length) 0, (s.read n).2)

/-- `canRead`: whether anything is left. -/
def canRead : Reader Bool := fun s =>
  .ok (s.peek.1.isSome, s.peek.2)

def readMany (n : Nat) (r : Reader α) : Reader (List α) :=
  match n with
  | 0 => pure []
  | n + 1 => do
      let a ← r
      let as ← readMany n r
      return a :: as

/-! ## When a computation succeeds -/

section

variable {r : Reader α} {f : α → Reader β} {s s' s'' : IStream} {a : α} {b : β}

theorem bind_eq_ok : (r >>= f) s = .ok (b, s'') ↔
    ∃ a s', r s = .ok (a, s') ∧ f a s' = .ok (b, s'') := by
  constructor
  · intro h
    change (r s).bind (fun p => f p.1 p.2) = .ok (b, s'') at h
    cases hr : r s with
    | error e =>
      rw [hr] at h
      cases h
    | ok p =>
      rw [hr] at h
      exact ⟨p.1, p.2, rfl, h⟩
  · rintro ⟨a, s', hr, hf⟩
    change (r s).bind (fun p => f p.1 p.2) = .ok (b, s'')
    rw [hr]
    exact hf

theorem pure_eq_ok {a' : α} : (pure a : Reader α) s = .ok (a', s') ↔ a = a' ∧ s = s' := by
  constructor
  · intro h
    cases h
    exact ⟨rfl, rfl⟩
  · rintro ⟨rfl, rfl⟩
    rfl

theorem liftM_eq_ok {x : Except String α} {a : α} (h : (MonadLift.monadLift x : Reader α) s = .ok (a, s')) :
    x = .ok a := by
  change (x >>= fun a => pure (a, s)) = Except.ok (a, s') at h
  cases x with
  | error e => cases h
  | ok a' =>
    cases h
    rfl

/-- What holds of every element read holds of the elements of the list. -/
theorem forall_of_readMany {P : α → Prop} {n : Nat} {as : List α}
    (hread : ∀ s a s', r s = .ok (a, s') → P a) (h : readMany n r s = .ok (as, s')) :
    as.length = n ∧ ∀ a ∈ as, P a := by
  induction n generalizing s s' as with
  | zero =>
    rcases pure_eq_ok.1 h with ⟨rfl, -⟩
    exact ⟨rfl, fun a ha => absurd ha List.not_mem_nil⟩
  | succ n ih =>
    rcases bind_eq_ok.1 h with ⟨a, s₁, ha, h⟩
    rcases bind_eq_ok.1 h with ⟨as', s₂, has, h⟩
    rcases pure_eq_ok.1 h with ⟨rfl, -⟩
    rcases ih has with ⟨hlength, hall⟩
    exact ⟨congrArg (· + 1) hlength, List.forall_mem_cons.2 ⟨hread _ _ _ ha, hall⟩⟩

end

/-! ## Reading back -/

/-- `r` reads exactly `bytes`, and gives `a`. -/
def Reads (r : Reader α) (bytes : Bytes) (a : α) : Prop :=
  ∀ rest, r { rest := bytes ++ rest } = .ok (a, { rest := rest })

namespace Reads

variable {r : Reader α} {f : α → Reader β} {bytes bytes' : Bytes} {a : α} {b : β}

theorem pure (a : α) : Reads (Pure.pure a) [] a :=
  fun _ => rfl

theorem bind (hr : Reads r bytes a) (hf : Reads (f a) bytes' b) :
    Reads (r >>= f) (bytes ++ bytes') b := by
  intro rest
  refine bind_eq_ok.2 ⟨a, { rest := bytes' ++ rest }, ?_, hf rest⟩
  rw [List.append_assoc]
  exact hr (bytes' ++ rest)

theorem run_bind (hr : Reads r bytes a) (f : α → Reader β) (rest : Bytes) :
    (r >>= f) { rest := bytes ++ rest } = f a { rest := rest } := by
  change (r { rest := bytes ++ rest }).bind (fun p => f p.1 p.2) = f a { rest := rest }
  rw [hr rest]
  rfl

/-- What is read is settled by the bytes. -/
theorem unique {a' : α} (h : Reads r bytes a) (h' : Reads r bytes a') : a = a' := by
  have heq := (h []).symm.trans (h' [])
  cases heq
  rfl

theorem map {g : α → β} (hr : Reads r bytes a) :
    Reads (r >>= fun a => Pure.pure (g a)) bytes (g a) := by
  have h := hr.bind (f := fun a => Pure.pure (g a)) (Reads.pure (g a))
  rw [List.append_nil] at h
  exact h

theorem liftM {x : Except String α} (h : x = .ok a) : Reads (MonadLift.monadLift x) [] a := by
  intro rest
  rw [h]
  rfl

/-- A list is read back when each of its elements is. -/
theorem readMany {as : List α} {encode : α → Bytes} (h : ∀ a ∈ as, Reads r (encode a) a) :
    Reads (Reader.readMany as.length r) (as.flatMap encode) as := by
  induction as with
  | nil => exact Reads.pure []
  | cons a as ih =>
    rw [List.forall_mem_cons] at h
    rw [List.flatMap_cons]
    exact h.1.bind (ih h.2).map

end Reads

section

variable {n : Nat} {decode : Bytes → α} {bytes : Bytes}

theorem read_append (bytes rest : Bytes) :
    ({ rest := bytes ++ rest } : IStream).read bytes.length = (bytes, { rest := rest }) := by
  have hlength : bytes.length ≤ (bytes ++ rest).length := by
    rw [List.length_append]
    exact Nat.le_add_right _ _
  rw [IStream.read, if_pos (IStream.good_rest _), if_pos hlength, List.take_left', List.drop_left']
  · rfl
  · rfl

theorem reads_field (hlength : bytes.length = n) :
    Reads (field n decode) bytes (decode bytes) := by
  intro rest
  rw [field, ← hlength, read_append]
  rfl

theorem reads_readU8 (b : UInt8) : Reads readU8 [b] b :=
  reads_field rfl

theorem reads_readU16 (n : UInt16) : Reads readU16 (writeU16 n) n := by
  have hdecode : Lib.readU16 (writeU16 n) 0 = n := by
    have h := readU16_writeU16 n []
    rw [List.append_nil] at h
    exact h
  have h : Reads readU16 (writeU16 n) (Lib.readU16 (writeU16 n) 0) := reads_field rfl
  rw [hdecode] at h
  exact h

theorem reads_readU32 (n : UInt32) : Reads readU32 (writeU32 n) n := by
  have hdecode : Lib.readU32 (writeU32 n) 0 = n := by
    have h := readU32_writeU32 n []
    rw [List.append_nil] at h
    exact h
  have h : Reads readU32 (writeU32 n) (Lib.readU32 (writeU32 n) 0) := reads_field rfl
  rw [hdecode] at h
  exact h

theorem reads_readPadded (hlength : bytes.length = n) : Reads (readPadded n) bytes bytes := by
  intro rest
  rw [readPadded, ← hlength, read_append]
  rw [Nat.sub_self, List.replicate_zero, List.append_nil]

theorem length_readPadded {s s' : IStream} (h : readPadded n s = .ok (bytes, s')) :
    bytes.length = n := by
  have hread : (s.read n).1.length ≤ n := by
    rw [IStream.read]
    split
    · split
      · exact List.length_take_le _ _
      · dsimp only
        omega
    · exact Nat.zero_le _
  cases h
  rw [List.length_append, List.length_replicate]
  omega

end

end Reader
end Lib
end AxisEngine
