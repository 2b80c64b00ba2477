import Mathlib.Data.List.Basic

/-!
# `Lib.RecordLoop` — a loop that takes records from a buffer

A decoder `next` takes a record from the front of a buffer and leaves the rest.  `Reads next data records`
says that it takes these records, each with the bytes it occupies, until the buffer is empty.  A loop
that runs `next` until the buffer is empty succeeds exactly on the buffers that are read
(`Reads.of_loop`, `Reads.loop_ok`), and what it returns is made of the records in their order.
-/

namespace RecordLoop

open List

variable {β α σ ε : Type}

/-- The buffer is read as these records, one behind the other. -/
inductive Reads (next : List β → Except ε (α × List β)) : List β → List (List β × α) → Prop
  | nil : Reads next [] []
  | cons {bytes rest : List β} {item : α} {records : List (List β × α)}
      (hnext : next (bytes ++ rest) = .ok (item, rest)) (hne : bytes ≠ []) (more : Reads next rest records) :
      Reads next (bytes ++ rest) ((bytes, item) :: records)

namespace Reads

variable {next : List β → Except ε (α × List β)} {data : List β} {records records' : List (List β × α)}

theorem step {bytes rest item} (hnext : next data = .ok (item, rest))
    (hfront : data = bytes ++ rest) (hne : bytes ≠ []) (more : Reads next rest records) :
    Reads next data ((bytes, item) :: records) := by
  subst hfront
  exact .cons hnext hne more

theorem eq_flatten (h : Reads next data records) : data = (records.map Prod.fst).flatten := by
  induction h with
  | nil => rfl
  | cons hnext hne more ih => rw [map_cons, flatten_cons, ← ih]

theorem unique (h : Reads next data records) (h' : Reads next data records') : records' = records := by
  induction h generalizing records' with
  | nil =>
    generalize hd : ([] : List β) = data' at h'
    cases h' with
    | nil => rfl
    | cons hnext hne =>
      have hnil := (append_eq_nil_iff.1 hd.symm).1
      exact absurd hnil hne
  | @cons bytes rest item records hnext hne more ih =>
    generalize hd : bytes ++ rest = data' at h'
    cases h' with
    | nil => exact absurd (append_eq_nil_iff.1 hd).1 hne
    | @cons bytes' rest' item' records' hnext' hne' more' =>
      rw [← hd, hnext] at hnext'
      cases hnext'
      obtain rfl := append_cancel_right hd
      rw [ih more']

section Loop

variable {store : α → σ → σ}

/-- A loop that takes records until the buffer is empty. -/
structure IsLoop (next : List β → Except ε (α × List β)) (store : α → σ → σ) {ε' : Type}
    (loop : List β → σ → Except ε' σ) : Prop where
  nil : ∀ acc, loop [] acc = .ok acc
  error : ∀ data acc e, data ≠ [] → next data = .error e → ∃ e', loop data acc = .error e'
  ok : ∀ data acc item rest, data ≠ [] → next data = .ok (item, rest) →
    loop data acc = loop rest (store item acc)
  front : ∀ data item rest, next data = .ok (item, rest) → ∃ bytes, bytes ≠ [] ∧ data = bytes ++ rest

/-- What the loop makes of the records. -/
def collect (store : α → σ → σ) (records : List (List β × α)) (acc : σ) : σ :=
  records.foldl (fun acc r => store r.2 acc) acc

/-- What storing a record keeps holds of what the loop makes. -/
theorem collect_invariant {P : σ → Prop} (h : Reads next data records) {acc} (hacc : P acc)
    (hstore : ∀ data item rest acc, next data = .ok (item, rest) → P acc → P (store item acc)) :
    P (collect store records acc) := by
  induction h generalizing acc with
  | nil => exact hacc
  | @cons bytes rest item records hnext hne more ih => exact ih (hstore _ _ _ _ hnext hacc)

variable {ε' : Type} {loop : List β → σ → Except ε' σ} {acc out : σ}

theorem loop_ok (hl : IsLoop next store loop) (h : Reads next data records) :
    loop data acc = .ok (collect store records acc) := by
  induction h generalizing acc with
  | nil => exact hl.nil acc
  | @cons bytes rest item records hnext hne more ih =>
    have hdata : bytes ++ rest ≠ [] := fun h => hne (append_eq_nil_iff.1 h).1
    rw [hl.ok _ acc _ _ hdata hnext, ih]
    rfl

/-- **A loop succeeds only on buffers that are read.** -/
theorem of_loop (hl : IsLoop next store loop) (h : loop data acc = .ok out) :
    ∃ records, Reads next data records ∧ out = collect store records acc := by
  -- every record shortens the buffer
  induction hn : data.length using Nat.strongRecOn generalizing data acc with
  | ind n ih =>
    by_cases hdata : data = []
    · subst hdata
      rw [hl.nil] at h
      cases h
      exact ⟨[], .nil, rfl⟩
    cases hnext : next data with
    | error e =>
      obtain ⟨e', he⟩ := hl.error data acc e hdata hnext
      rw [he] at h
      cases h
    | ok r =>
      obtain ⟨item, rest⟩ := r
      rw [hl.ok data acc item rest hdata hnext] at h
      obtain ⟨bytes, hne, rfl⟩ := hl.front data item rest hnext
      have hpos := length_pos_iff.2 hne
      rw [length_append] at hn
      obtain ⟨records, hreads, rfl⟩ := ih rest.length (by omega) h rfl
      exact ⟨(bytes, item) :: records, .cons hnext hne hreads, rfl⟩

end Loop

end Reads

end RecordLoop
