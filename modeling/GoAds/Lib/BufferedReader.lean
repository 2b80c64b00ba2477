import Mathlib.Data.List.Basic
import Mathlib.Tactic.Ring

/-!
# `Lib.BufferedReader` — buffered reads from a source that delivers in pieces

A source delivers its content in pieces, one piece (or a part of it) a read.  A buffered reader asks the
source for a bufferful at a time, hands out what it has, and reads a large request directly; `readFull`
reads until it has all it wants.  What `readFull` returns depends on the content of the source only, not on
the pieces it comes in: `readFull_of_le` and `readFull_of_lt`.
-/

/-- A buffered reader: what it has fetched and not handed out, and the pieces the source has yet to
    deliver. -/
structure BufferedReader (α : Type*) where
  buf : List α
  chunks : List (List α)

namespace BufferedReader

open List

variable {α : Type*} {r r' : BufferedReader α} {size n : Nat} {got : List α}

/-- Everything that is still to be read. -/
def content (r : BufferedReader α) : List α := r.buf ++ r.chunks.flatten

/-- One read from the source, of at most `n` elements: a part of the next piece, or nothing at the end. -/
def fetch (n : Nat) : List (List α) → Option (List α × List (List α))
  | [] => none
  | c :: cs => some (c.take n, if c.length ≤ n then cs else c.drop n :: cs)

/-- One read of at most `n` elements through a buffer of `size`. -/
def read (size n : Nat) (r : BufferedReader α) : Option (List α × BufferedReader α) :=
  match r.buf with
  | [] =>
    if size ≤ n then (fetch n r.chunks).map fun p => (p.1, ⟨[], p.2⟩)
    else (fetch size r.chunks).map fun p => (p.1.take n, ⟨p.1.drop n, p.2⟩)
  | x :: xs => some ((x :: xs).take n, ⟨(x :: xs).drop n, r.chunks⟩)

theorem fetch_spec {chunks chunks'} (h : fetch n chunks = some (got, chunks')) :
    chunks.flatten = got ++ chunks'.flatten ∧ got.length ≤ n ∧ chunks'.length ≤ chunks.length ∧
      (0 < n → got = [] → chunks'.length < chunks.length) := by
  cases chunks with
  | nil => cases h
  | cons c cs =>
    cases h
    by_cases hc : c.length ≤ n
    · rw [if_pos hc, take_of_length_le hc]
      exact ⟨flatten_cons, hc, Nat.le_succ _, fun _ _ => Nat.lt_succ_self _⟩
    rw [if_neg hc]
    refine ⟨?_, length_take_le n c, Nat.le_refl _, fun hn hnil => ?_⟩
    · rw [flatten_cons, flatten_cons, ← append_assoc, take_append_drop]
    have : (c.take n).length = 0 := by rw [hnil]; rfl
    rw [length_take] at this
    omega

/-- A read hands out the front of the content, and makes progress even when it hands out nothing. -/
theorem read_spec (hn : 0 < n) (h : r.read size n = some (got, r')) :
    r.content = got ++ r'.content ∧ got.length ≤ n ∧
      r'.content.length + r'.chunks.length < r.content.length + r.chunks.length := by
  obtain ⟨buf, chunks⟩ := r
  cases buf with
  | nil =>
    simp only [read] at h
    split at h
    · next hsize =>
      obtain ⟨⟨got', chunks'⟩, hfetch, heq⟩ := Option.map_eq_some_iff.1 h
      cases heq
      obtain ⟨hflat, hle, hcs, hprog⟩ := fetch_spec hfetch
      refine ⟨hflat, hle, ?_⟩
      simp only [content, nil_append, hflat, length_append]
      cases got' with
      | nil =>
        have := hprog hn rfl
        omega
      | cons x xs =>
        rw [length_cons]
        omega
    · next hsize =>
      obtain ⟨⟨got', chunks'⟩, hfetch, heq⟩ := Option.map_eq_some_iff.1 h
      cases heq
      obtain ⟨hflat, -, hcs, hprog⟩ := fetch_spec hfetch
      refine ⟨?_, length_take_le n got', ?_⟩
      · simp only [content, nil_append]
        rw [← append_assoc, take_append_drop, hflat]
      simp only [content, nil_append, hflat, length_append, length_drop]
      cases got' with
      | nil =>
        have := hprog (by omega) rfl
        simp only [length_nil]
        omega
      | cons x xs =>
        rw [length_cons]
        omega
  | cons x xs =>
    cases h
    refine ⟨?_, length_take_le n _, ?_⟩
    · simp only [content]
      rw [← append_assoc, take_append_drop]
    · simp only [content, length_append, length_drop, length_cons]
      omega

theorem read_eq_none (h : r.read size n = none) : r.content = [] := by
  obtain ⟨buf, chunks⟩ := r
  cases buf with
  | nil =>
    cases chunks with
    | nil => rfl
    | cons c cs =>
      simp only [read, fetch] at h
      split at h <;> cases h
  | cons => cases h

/-- Reads until there are `n` elements; nothing if the source ends before. -/
def readFull (size n : Nat) (r : BufferedReader α) : Option (List α × BufferedReader α) :=
  if _hn : 0 < n then
    match _h : r.read size n with
    | none => none
    | some (got, r') => (readFull size (n - got.length) r').map fun p => (got ++ p.1, p.2)
  else some ([], r)
termination_by r.content.length + r.chunks.length
decreasing_by exact (read_spec _hn _h).2.2

/-- **Enough content is read whatever the pieces are.** -/
theorem readFull_of_le (size : Nat) (h : n ≤ r.content.length) :
    ∃ r', r.readFull size n = some (r.content.take n, r') ∧ r'.content = r.content.drop n := by
  fun_induction readFull size n r with
  | case1 n r hn hnone =>
    rw [read_eq_none hnone] at h
    exact absurd hn (Nat.not_lt.2 h)
  | case2 n r hn got r' hread ih =>
    obtain ⟨hcontent, hgot, -⟩ := read_spec hn hread
    rw [hcontent, length_append] at h
    obtain ⟨r'', hrest, hdrop⟩ := ih (by omega)
    refine ⟨r'', ?_, ?_⟩
    · rw [hrest, hcontent, take_append, take_of_length_le hgot]
      rfl
    · rw [hdrop, hcontent, drop_append, drop_of_length_le hgot, nil_append]
  | case3 n r hn =>
    have hzero : n = 0 := by omega
    subst hzero
    exact ⟨r, rfl, rfl⟩

theorem readFull_of_lt (size : Nat) (h : r.content.length < n) : r.readFull size n = none := by
  fun_induction readFull size n r with
  | case1 n r hn hnone => rfl
  | case2 n r hn got r' hread ih =>
    obtain ⟨hcontent, hgot, -⟩ := read_spec hn hread
    rw [hcontent, length_append] at h
    rw [ih (by omega)]
    rfl
  | case3 n r hn => omega

end BufferedReader
