import Mathlib.Data.List.Nodup

/-!
# `Lib.Keyed` — a map as the list of its entries

A map whose entries know their own keys is the list of its entries, in the order in which the keys were
first stored.  Storing under a key that is there replaces the entry in its place.
-/

namespace Keyed

open List

variable {κ α : Type} [DecidableEq κ] (key : α → κ)

/-- The entry is stored under its key. -/
def store (x : α) : List α → List α
  | [] => [x]
  | y :: ys => if key y = key x then x :: ys else y :: store x ys

/-- The entries are stored one after the other. -/
def storeAll (m xs : List α) : List α := xs.foldl (fun m x => store key x m) m

variable {key} {x : α} {m xs : List α}

theorem store_of_new (h : key x ∉ m.map key) : store key x m = m ++ [x] := by
  induction m with
  | nil => rfl
  | cons y m ih =>
    rw [map_cons, mem_cons, not_or] at h
    rw [store, if_neg fun heq => h.1 heq.symm, ih h.2, cons_append]

/-- What holds of the entries and of the new one holds after it is stored. -/
theorem forall_store {P : α → Prop} (hm : ∀ y ∈ m, P y) (hx : P x) : ∀ y ∈ store key x m, P y := by
  induction m with
  | nil => exact forall_mem_singleton.2 hx
  | cons z m ih =>
    have hz := forall_mem_cons.1 hm
    rw [store]
    split
    · exact forall_mem_cons.2 ⟨hx, hz.2⟩
    · exact forall_mem_cons.2 ⟨hz.1, ih hz.2⟩

theorem storeAll_of_nodup (h : ((m ++ xs).map key).Nodup) : storeAll key m xs = m ++ xs := by
  induction xs generalizing m with
  | nil => exact (append_nil m).symm
  | cons x xs ih =>
    have hnew : key x ∉ m.map key := by
      rw [map_append, map_cons] at h
      intro hx
      exact disjoint_of_nodup_append h hx (mem_cons_self ..)
    show storeAll key (store key x m) xs = m ++ x :: xs
    rw [store_of_new hnew, ih, append_assoc, singleton_append]
    rw [append_assoc, singleton_append]
    exact h

end Keyed
