import Mathlib.Data.List.Nodup

/-!
# LRUCache — answers that are kept for a while

A cache keeps the answers to the last questions.  A question whose answer is not kept is answered by
`cacheMiss`, and when there is no room the answer that was not asked for the longest time is dropped.

* `LRUCache` — the answers and the queue of the questions;
* `lookupCache`, `invalidate`, `setLimit`;
* `Right` — what is kept is what `cacheMiss` says;
* `lookupCache_right` — then so is every answer, and it stays so.
-/

namespace AxisEngine
namespace Lib

/-- The queue has the questions whose answers are kept, the last one first. -/
structure LRUCache (κ ν : Type*) [DecidableEq κ] where
  limit : ℕ
  map : κ → Option ν
  queue : List κ
  nodup : queue.Nodup
  mem_queue : ∀ k, k ∈ queue ↔ (map k).isSome

namespace LRUCache

variable {κ ν : Type*} [DecidableEq κ]

def new (limit : ℕ) : LRUCache κ ν where
  limit := max 1 limit
  map _ := none
  queue := []
  nodup := List.nodup_nil
  mem_queue k := ⟨fun h => absurd h List.not_mem_nil, fun h => (by cases h)⟩

def invalidate (c : LRUCache κ ν) : LRUCache κ ν :=
  { new c.limit with limit := c.limit }

def setLimit (_c : LRUCache κ ν) (limit : ℕ) : LRUCache κ ν :=
  new limit

/-- The question comes to the front of the queue. -/
def touch (c : LRUCache κ ν) (k : κ) (h : k ∈ c.queue) : LRUCache κ ν where
  limit := c.limit
  map := c.map
  queue := k :: c.queue.erase k
  nodup := List.nodup_cons.2 ⟨c.nodup.not_mem_erase, c.nodup.erase k⟩
  mem_queue k' := by
    rw [List.mem_cons, c.nodup.mem_erase_iff, ← c.mem_queue]
    by_cases hk : k' = k
    · rw [hk]
      simp [h]
    · simp [hk]

/-- The last question of the queue is dropped. -/
def dropLast (c : LRUCache κ ν) : LRUCache κ ν where
  limit := c.limit
  map k := if k ∈ c.queue.dropLast then c.map k else none
  queue := c.queue.dropLast
  nodup := c.nodup.sublist (List.dropLast_sublist _)
  mem_queue k := by
    split
    · rename_i hk
      exact ⟨fun _ => (c.mem_queue k).1 ((List.dropLast_sublist _).mem hk), fun _ => hk⟩
    · rename_i hk
      exact ⟨fun h => absurd h hk, fun h => (by cases h)⟩

/-- A new question with its answer. -/
def push (c : LRUCache κ ν) (k : κ) (v : ν) (h : k ∉ c.queue) : LRUCache κ ν where
  limit := c.limit
  map := Function.update c.map k (some v)
  queue := k :: c.queue
  nodup := List.nodup_cons.2 ⟨h, c.nodup⟩
  mem_queue k' := by
    rw [List.mem_cons, Function.update_apply]
    split
    · rename_i hk
      simp [hk]
    · rename_i hk
      rw [← c.mem_queue]
      simp [hk]

theorem not_mem_dropLast {c : LRUCache κ ν} {k : κ} (h : k ∉ c.queue) : k ∉ c.dropLast.queue :=
  fun hk => h ((List.dropLast_sublist _).mem hk)

/-- The answer, and the cache afterwards. -/
def lookupCache (cacheMiss : κ → ν) (c : LRUCache κ ν) (k : κ) : ν × LRUCache κ ν :=
  match h : c.map k with
  | some v => (v, c.touch k ((c.mem_queue k).2 (by rw [h]; rfl)))
  | none =>
    have hnew : k ∉ c.queue := fun hk => by
      rw [c.mem_queue, h] at hk
      cases hk
    (cacheMiss k,
      if c.queue.length = c.limit then c.dropLast.push k (cacheMiss k) (not_mem_dropLast hnew)
      else c.push k (cacheMiss k) hnew)

/-! ## What is kept -/

/-- What is kept is what `cacheMiss` says. -/
def Right (cacheMiss : κ → ν) (c : LRUCache κ ν) : Prop :=
  ∀ k v, c.map k = some v → v = cacheMiss k

section

variable {cacheMiss : κ → ν} {c : LRUCache κ ν} {k : κ}

theorem right_new (cacheMiss : κ → ν) (limit : ℕ) : Right cacheMiss (new limit) :=
  fun _ _ h => (by cases h)

theorem right_invalidate (cacheMiss : κ → ν) (c : LRUCache κ ν) : Right cacheMiss c.invalidate :=
  fun _ _ h => (by cases h)

theorem Right.dropLast (h : Right cacheMiss c) : Right cacheMiss c.dropLast := by
  intro k v hk
  change (if k ∈ c.queue.dropLast then c.map k else none) = some v at hk
  split at hk
  · exact h k v hk
  · cases hk

theorem Right.push (h : Right cacheMiss c) (hk : k ∉ c.queue) :
    Right cacheMiss (c.push k (cacheMiss k) hk) := by
  intro k' v hv
  change Function.update c.map k (some (cacheMiss k)) k' = some v at hv
  rw [Function.update_apply] at hv
  split at hv
  · rename_i heq
    cases hv
    rw [heq]
  · exact h k' v hv

/-- Every answer is what `cacheMiss` says, and what is kept afterwards is too. -/
theorem lookupCache_right (h : Right cacheMiss c) (k : κ) :
    (c.lookupCache cacheMiss k).1 = cacheMiss k ∧ Right cacheMiss (c.lookupCache cacheMiss k).2 := by
  rw [lookupCache]
  split
  · rename_i v hv
    exact ⟨h k v hv, h⟩
  · refine ⟨rfl, ?_⟩
    dsimp only
    split
    · exact h.dropLast.push _
    · exact h.push _

end

end LRUCache

end Lib
end AxisEngine
