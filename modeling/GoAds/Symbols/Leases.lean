import Mathlib.Data.List.Nodup
import GoAds.Lib.Custody
import GoAds.Symbols.Resolve

/-!
# `Symbols.Leases` — every handle of the PLC is an entry's, or has been released

A handle that the PLC has given out for `GetHandleByName` takes a place in the PLC until it is released
through `GroupSymbolReleaseHandle`.  `getSymbol` stores it in the entry of its name, or releases it when
the cache was swapped or another goroutine was faster, and RefreshSymbols releases the handles of all
entries before it loads the new table.  The other loads replace `cache.symbols` as they find it: the
handles of the entries they replace are forgotten, with or without being zeroed first.

The handles that are out are a history variable.  A release stands in the step of the critical section
that decides it; the request itself follows outside the lock, and no step reads its outcome.
-/

namespace GoAds.Symbols

open Interleaving Custody List Cache

variable {Key Layout Types : Type} [DecidableEq Key]

/-- The handles that are released after a critical section: by `getSymbol` the one it has got and does
    not store, by RefreshSymbols those of all entries. -/
def released (c : Cache Key Layout Types) : Pc Key Layout Types → Act Key Layout Types → List UInt32
  | .setHandle n id h _, .next => if c.entry n ≠ some id ∨ (c.heap id).handle ≠ 0 then [h] else []
  | .insert n _ h _ _ _, .next => if c.entry n = none then [] else [h]
  | .idle, .zero false => (c.symbols.map fun p => (c.heap p.2).handle).filter (· ≠ 0)
  | _, _ => []

def issued : Act Key Layout Types → List UInt32
  | .handle h => [h]
  | _ => []

/-- The handles that are out after a step. -/
def lend (out : List UInt32) (s : State Key Layout Types) (x : Nat × Act Key Layout Types) : List UInt32 :=
  issued x.2 ++ out.filter (· ∉ released s.shared (s.loc x.1) x.2)

abbrev Lent (Key Layout Types : Type) := State Key Layout Types × List UInt32

/-- What the PLC does: a handle is not 0, and not one that is out. -/
def FreshHandles (s : Lent Key Layout Types) (x : Nat × Act Key Layout Types) : Prop :=
  match x.2 with
  | .handle h => h ≠ 0 ∧ h ∉ s.2
  | _ => True

/-- `cache.symbols` is replaced, or its handles are zeroed by an auto-reload, only while no entry has a
    handle. -/
def SwapsUnlent (s : Lent Key Layout Types) (x : Nat × Act Key Layout Types) : Prop :=
  match x.2 with
  | .swap _ _ _ | .zero true => ∀ p ∈ s.1.shared.symbols, (s.1.shared.heap p.2).handle = 0
  | _ => True

def Quiescent (s : State Key Layout Types) : Prop := ∀ t, s.loc t = .idle

/-! ## The leases of the entries -/

/-- The entry of the name has the handle. -/
def Cache.Leases (c : Cache Key Layout Types) (n : Key) (h : UInt32) : Prop :=
  h ≠ 0 ∧ ∃ id, c.entry n = some id ∧ (c.heap id).handle = h

variable {c c' : Cache Key Layout Types} {n : Key} {h : UInt32}

theorem Cache.Leases.iff_of_same (he : c'.symbols = c.symbols)
    (hh : ∀ id, (c'.heap id).handle = (c.heap id).handle) : c'.Leases n h ↔ c.Leases n h := by
  unfold Cache.Leases Cache.entry
  rw [he]
  simp only [hh]

theorem Cache.not_leases (hz : ∀ p ∈ c.symbols, (c.heap p.2).handle = 0) : ¬c.Leases n h := by
  rintro ⟨hne, id, he, rfl⟩
  exact hne (hz _ (mem_of_entry he))

/-- The entries are distinct objects, and an object with a handle is found under its name. -/
structure Cache.Apart (c : Cache Key Layout Types) : Prop where
  closed : c.Closed
  nodup : (c.symbols.map Prod.snd).Nodup
  found : ∀ p ∈ c.symbols, (c.heap p.2).handle ≠ 0 → c.entry p.1 = some p.2

variable {id : SymId}

theorem Cache.Apart.name_eq {m} (ha : c.Apart) (hn : c.entry n = some id)
    (hm : c.entry m = some id) : n = m := by
  have h := inj_on_of_nodup_map ha.nodup (mem_of_entry hn) (mem_of_entry hm) rfl
  exact congrArg Prod.fst h

omit [DecidableEq Key] in
theorem nodup_mapOf (next : SymId) (table : List (Key × Desc Layout)) :
    ((Cache.mapOf next table).map Prod.snd).Nodup := by
  unfold Cache.mapOf
  rw [zipIdx_map_snd]
  exact nodup_range'

omit [DecidableEq Key] in
theorem handle_allocate {descs} (hle : c.next ≤ id)
    (hlt : id < c.next + descs.length) : ((c.allocate descs).heap id).handle = 0 := by
  have hi : id - c.next < descs.length := Nat.sub_lt_left_of_lt_add hle hlt
  simp only [Cache.allocate, if_pos hle, getElem?_eq_getElem hi]

section Effects

variable {e : Effect Key Layout Types} {n₀ : Key} {id₀ : SymId} {h₀ : UInt32}

theorem leases_setHandle (ha : c.Apart) (he : c.entry n₀ = some id₀) (hz : (c.heap id₀).handle = 0)
    (hne : h₀ ≠ 0) : (c.setHandle id₀ h₀).Leases n h ↔ n = n₀ ∧ h = h₀ ∨ c.Leases n h := by
  constructor
  · rintro ⟨hh, id, hn, hid⟩
    have hn : c.entry n = some id := hn
    by_cases heq : id = id₀
    · subst heq
      rw [handle_setHandle] at hid
      exact .inl ⟨ha.name_eq hn he, hid.symm⟩
    · rw [handle_setHandle_of_ne h₀ heq] at hid
      exact .inr ⟨hh, id, hn, hid⟩
  rintro (⟨rfl, rfl⟩ | ⟨hh, id, hn, hid⟩)
  · exact ⟨hne, id₀, he, handle_setHandle h⟩
  refine ⟨hh, id, hn, ?_⟩
  have heq : id ≠ id₀ := by
    rintro rfl
    exact hh (hid.symm.trans hz)
  rw [handle_setHandle_of_ne h₀ heq]
  exact hid

theorem leases_insert (ha : c.Apart) (he : c.entry n₀ = none) (d : Desc Layout) (hne : h₀ ≠ 0) :
    ((Effect.insert n₀ d h₀).run c).Leases n h ↔ n = n₀ ∧ h = h₀ ∨ c.Leases n h := by
  have hnew := heap_insert (c := c) n₀ d h₀
  have hold : ∀ id, id < c.next → (((Effect.insert n₀ d h₀).run c).heap id).handle = (c.heap id).handle := by
    intro id hid
    show (((c.allocate [d]).setHandle c.next h₀).heap id).handle = (c.heap id).handle
    rw [handle_setHandle_of_ne h₀ (Nat.ne_of_lt hid), heap_allocate _ hid]
  have hentry : ∀ m, m ≠ n₀ → ((Effect.insert n₀ d h₀).run c).entry m = c.entry m := by
    intro m hm
    show lookup m ((n₀, c.next) :: c.symbols) = _
    rw [lookup_cons, beq_eq_false_iff_ne.2 hm]
    rfl
  constructor
  · rintro ⟨hh, id, hn, hid⟩
    by_cases hm : n = n₀
    · subst hm
      cases hnew.1.symm.trans hn
      exact .inl ⟨rfl, hid.symm.trans hnew.2.2⟩
    rw [hentry n hm] at hn
    rw [hold id (ha.closed.entry_lt hn)] at hid
    exact .inr ⟨hh, id, hn, hid⟩
  rintro (⟨rfl, rfl⟩ | ⟨hh, id, hn, hid⟩)
  · exact ⟨hne, c.next, hnew.1, hnew.2.2⟩
  have hm : n ≠ n₀ := by
    rintro rfl
    exact nomatch hn.symm.trans he
  exact ⟨hh, id, (hentry n hm).trans hn, (hold id (ha.closed.entry_lt hn)).trans hid⟩

theorem leases_setValues (ds : List (SymId × Option (Decoded Layout Types))) :
    (c.setValues ds).Leases n h ↔ c.Leases n h :=
  Cache.Leases.iff_of_same (onlyValues_setValues ds).symbols (onlyValues_setValues ds).handle

variable {p : Key × SymId}

theorem handle_swap (zeroed : Bool) (types : Option Types) (table : List (Key × Desc Layout))
    (hp : p ∈ ((Effect.swap zeroed types table).run c).symbols) :
    (((Effect.swap zeroed types table).run c).heap p.2).handle = 0 := by
  have hm := of_mem_mapOf hp
  have hlt : p.2 < c.next + (table.map Prod.snd).length := by simpa using hm.2
  cases zeroed with
  | true => exact handle_allocate (c := c.zeroHandles true) hm.1 hlt
  | false => exact handle_allocate hm.1 hlt

omit [DecidableEq Key] in
theorem handle_zeroHandles (values : Bool) (hp : p ∈ c.symbols) :
    ((c.zeroHandles values).heap p.2).handle = 0 := by
  have hl : c.listed p.2 = true := any_eq_true.2 ⟨p, hp, beq_self_eq_true _⟩
  simp only [Cache.zeroHandles, if_pos hl]

variable (types : Types) (layouts : List (Key × Layout)) (added : List (Key × Desc Layout))

/-- `LoadDataTypes` leaves the handles where they are, and adds entries without. -/
theorem handle_expand {id} (hid : id < c.next) :
    (((Effect.expand types layouts added).run c).heap id).handle = (c.heap id).handle := by
  obtain ⟨l, hl⟩ := heap_relayout c id layouts
  show (((c.relayout layouts).allocate _).heap id).handle = _
  rw [heap_allocate (c := c.relayout layouts) _ hid, hl]

theorem handle_expand_new (hp : p ∈ Cache.mapOf c.next (added.filter fun q => (c.entry q.1).isNone)) :
    (((Effect.expand types layouts added).run c).heap p.2).handle = 0 := by
  have hm := of_mem_mapOf hp
  refine handle_allocate (c := c.relayout layouts) hm.1 ?_
  rw [length_map]
  exact hm.2

theorem entry_expand : ((Effect.expand types layouts added).run c).entry n =
      (c.entry n).or (lookup n (Cache.mapOf c.next (added.filter fun q => (c.entry q.1).isNone))) := by
  show lookup n (c.symbols ++ _) = _
  rw [lookup_append]
  rfl

theorem leases_expand (ha : c.Apart) (types : Types) (layouts : List (Key × Layout))
    (added : List (Key × Desc Layout)) :
    ((Effect.expand types layouts added).run c).Leases n h ↔ c.Leases n h := by
  unfold Cache.Leases
  rw [entry_expand]
  cases hc : c.entry n with
  | some => simp [handle_expand types layouts added (ha.closed.entry_lt hc)]
  | none =>
    simp only [Option.none_or, reduceCtorEq, false_and, exists_false, and_false, iff_false]
    rintro ⟨hne, id, hl, hid⟩
    obtain ⟨l, l', heq, -⟩ := lookup_eq_some_iff.1 hl
    have hm : (n, id) ∈ Cache.mapOf c.next (added.filter fun q => (c.entry q.1).isNone) :=
      heq ▸ mem_append_right l (mem_cons_self ..)
    exact hne (hid.symm.trans (handle_expand_new types layouts added hm))

end Effects

/-! ## The entries stay apart -/

section Steps

variable {parse : Parse Layout Types} {pc pc' : Pc Key Layout Types} {a : Act Key Layout Types}
  {e : Effect Key Layout Types}

theorem PlanStep.setHandle_entry {id} (hs : PlanStep parse c pc a pc' (.setHandle id h)) :
    ∃ m, c.entry m = some id := by
  cases hs with
  | get hs =>
    cases hs with
    | setHandle m _ _ _ he => exact ⟨m, he⟩
  | read hs | batch hs | idle hs => cases hs

theorem Effect.nodup_run (hc : c.Closed) (hd : (c.symbols.map Prod.snd).Nodup) :
    ((e.run c).symbols.map Prod.snd).Nodup := by
  cases e with
  | insert =>
    show (c.next :: c.symbols.map Prod.snd).Nodup
    refine nodup_cons.2 ⟨?_, hd⟩
    intro hm
    obtain ⟨p, hp, hpn⟩ := mem_map.1 hm
    exact absurd (hc p hp) (by rw [hpn]; exact Nat.lt_irrefl _)
  | store | drop =>
    show ((c.setValues _).symbols.map Prod.snd).Nodup
    rw [(onlyValues_setValues _).symbols]
    exact hd
  | swap zeroed types table => exact nodup_mapOf c.next table
  | expand =>
    show ((c.symbols ++ Cache.mapOf c.next _).map Prod.snd).Nodup
    rw [map_append]
    refine hd.append (nodup_mapOf c.next _) fun i hi hi' => ?_
    obtain ⟨p, hp, rfl⟩ := mem_map.1 hi
    obtain ⟨q, hq, hqp⟩ := mem_map.1 hi'
    have hle := (of_mem_mapOf hq).1
    rw [hqp] at hle
    exact absurd (hc p hp) (Nat.not_lt.2 hle)
  | _ => exact hd

theorem Cache.Apart.found_values {c'} (ha : c.Apart) (h : c.OnlyValues c') {p} (hp : p ∈ c'.symbols)
    (hne : (c'.heap p.2).handle ≠ 0) : c'.entry p.1 = some p.2 := by
  unfold Cache.entry
  rw [h.symbols] at hp ⊢
  exact ha.found p hp fun h0 => hne ((h.handle p.2).trans h0)

/-- An object with a handle is found under its name after a step. -/
theorem Cache.Apart.found_run (ha : c.Apart) (hs : PlanStep parse c pc a pc' e) :
    ∀ p ∈ (e.run c).symbols, ((e.run c).heap p.2).handle ≠ 0 → (e.run c).entry p.1 = some p.2 := by
  intro p hp hne
  cases e with
  | setHandle id x =>
    have hp : p ∈ c.symbols := hp
    by_cases heq : p.2 = id
    · -- the object is the entry that the handle is stored in
      obtain ⟨m, hm⟩ := hs.setHandle_entry
      have hpm : p = (m, id) := inj_on_of_nodup_map ha.nodup hp (mem_of_entry hm) heq
      rw [hpm]
      exact hm
    have hk : ((c.setHandle id x).heap p.2).handle ≠ 0 := hne
    rw [handle_setHandle_of_ne x heq] at hk
    exact ha.found p hp hk
  | insert key d x =>
    rcases mem_cons.1 hp with rfl | hp
    · exact (heap_insert key d x).1
    have hk : (((c.allocate [d]).setHandle c.next x).heap p.2).handle ≠ 0 := hne
    rw [handle_setHandle_of_ne x (Nat.ne_of_lt (ha.closed p hp)),
      heap_allocate _ (ha.closed p hp)] at hk
    rcases Effect.entry_run (e := .insert key d x) (ha.found p hp hk) hs.insert_fresh with he | ⟨_, _, _, he⟩
    · exact he
    · cases he
  | store => exact ha.found_values (onlyValues_setValues _) hp hne
  | drop => exact ha.found_values (onlyValues_setValues _) hp hne
  | swap zeroed types table => exact absurd (handle_swap zeroed types table hp) hne
  | expand types layouts added =>
    rcases mem_append.1 hp with hp | hp
    · rw [handle_expand types layouts added (ha.closed p hp)] at hne
      rw [entry_expand, ha.found p hp hne]
      rfl
    · exact absurd (handle_expand_new types layouts added hp) hne
  | zero values => exact absurd (handle_zeroHandles (c := c) values hp) hne
  | none | bump | reconnect => exact ha.found p hp hne

theorem Cache.Apart.run (ha : c.Apart) (hs : PlanStep parse c pc a pc' e) : (e.run c).Apart :=
  ⟨ha.closed.run, Effect.nodup_run ha.closed ha.nodup, ha.found_run hs⟩

end Steps

/-! ## What one step does to the leases -/

/-- A step of a goroutine, by what becomes of the handles. -/
inductive LeaseStep (c c' : Cache Key Layout Types) (pc : Pc Key Layout Types)
    (a : Act Key Layout Types) (pc' : Pc Key Layout Types) : Prop
  | calm (hpc : pc'.handle = pc.handle) (hi : issued a = []) (hr : released c pc a = [])
      (hl : ∀ m x, c'.Leases m x ↔ c.Leases m x)
  | issue (h : UInt32) (hpc : pc.handle = none) (hpc' : pc'.handle = some h) (hi : a = .handle h)
      (hr : released c pc a = []) (hl : ∀ m x, c'.Leases m x ↔ c.Leases m x)
  | release (h : UInt32) (hpc : pc.handle = some h) (hpc' : pc'.handle = none) (hi : issued a = [])
      (hr : released c pc a = [h]) (hl : ∀ m x, c'.Leases m x ↔ c.Leases m x)
  | store (n : Key) (h : UInt32) (hpc : pc.handle = some h) (hpc' : pc'.handle = none)
      (hi : issued a = []) (hr : released c pc a = [])
      (hl : ∀ m x, c'.Leases m x ↔ m = n ∧ x = h ∨ c.Leases m x)
  | wipe (hpc : pc.handle = none) (hpc' : pc'.handle = none) (hi : issued a = [])
      (hr : ∀ x, x ∈ released c pc a ↔ ∃ m, c.Leases m x) (hl : ∀ m x, ¬c'.Leases m x)

section Moves

variable {parse : Parse Layout Types} {pc pc' : Pc Key Layout Types} {a : Act Key Layout Types}
  {e : Effect Key Layout Types}

theorem GetStep.lease (ha : c.Apart) (hs : GetStep c pc a pc' e)
    (hnz : ∀ x, pc.handle = some x → x ≠ 0) : LeaseStep c (e.run c) pc a pc' := by
  cases hs with
  | hit m k i => exact .calm (k.resolving_got m i).2 rfl rfl fun _ _ => Iff.rfl
  | needHandle | miss | info => exact .calm rfl rfl rfl fun _ _ => Iff.rfl
  | handleFail m i k | infoFail m k | answerFail m d info k =>
    exact .calm k.resolving_failed.2 rfl rfl fun _ _ => Iff.rfl
  | handle m i k x | answer m d info k x => exact .issue x rfl rfl rfl rfl fun _ _ => Iff.rfl
  | swapped m i x k he =>
    refine .release x rfl k.resolving_failed.2 rfl ?_ fun _ _ => Iff.rfl
    exact if_pos (.inl he)
  | duplicate m i x k he hh =>
    refine .release x rfl (k.resolving_got m i).2 rfl ?_ fun _ _ => Iff.rfl
    exact if_pos (.inr hh)
  | existing m d x info ans k i he =>
    refine .release x rfl (k.resolving_got m i).2 rfl ?_ fun _ _ => Iff.rfl
    exact if_neg (by rw [he]; exact Option.some_ne_none i)
  | setHandle m i x k he hh =>
    refine .store m x rfl (k.resolving_got m i).2 rfl ?_ fun _ _ => leases_setHandle ha he hh (hnz x rfl)
    exact if_neg (not_or.2 ⟨not_not.2 he, not_not.2 hh⟩)
  | insert m d x info ans k he =>
    refine .store m x rfl (k.resolving_got m c.next).2 rfl ?_ fun _ _ => leases_insert ha he d (hnz x rfl)
    exact if_pos he

theorem ReadStep.lease (hs : ReadStep parse c pc a pc' e) : LeaseStep c (e.run c) pc a pc' := by
  cases hs with
  | decoded => exact .calm rfl rfl rfl fun _ _ => leases_setValues _
  | _ => exact .calm rfl rfl rfl fun _ _ => Iff.rfl

theorem BatchStep.lease (hs : BatchStep parse c pc a pc' e) : LeaseStep c (e.run c) pc a pc' := by
  cases hs with
  | unserializable m i b => exact .calm b.resolving_go.2 rfl rfl fun _ _ => Iff.rfl
  | select | retry => exact .calm (Batch.resolving_go _).2 rfl rfl fun _ _ => Iff.rfl
  | wrote | read => exact .calm rfl rfl rfl fun _ _ => leases_setValues _
  | _ => exact .calm rfl rfl rfl fun _ _ => Iff.rfl

theorem lease_swap (zeroed : Bool) (types : Option Types) (table : List (Key × Desc Layout))
    (hz : ∀ p ∈ c.symbols, (c.heap p.2).handle = 0) :
    LeaseStep c ((Effect.swap zeroed types table).run c) .idle (.swap zeroed types table) .idle := by
  refine .calm rfl rfl rfl fun m x => ?_
  have hnew : ¬((Effect.swap zeroed types table).run c).Leases m x :=
    not_leases fun p hp => handle_swap zeroed types table hp
  exact iff_of_false hnew (not_leases hz)

theorem lease_refresh (ha : c.Apart) :
    LeaseStep c ((Effect.zero false).run c) .idle (.zero false) .idle := by
  refine .wipe rfl rfl rfl (fun x => ?_) fun m x => ?_
  · show x ∈ (c.symbols.map fun p => (c.heap p.2).handle).filter (· ≠ 0) ↔ _
    simp only [mem_filter, mem_map, decide_eq_true_eq]
    constructor
    · rintro ⟨⟨p, hp, rfl⟩, hne⟩
      exact ⟨p.1, hne, p.2, ha.found p hp hne, rfl⟩
    · rintro ⟨m, hne, i, he, rfl⟩
      exact ⟨⟨(m, i), mem_of_entry he, rfl⟩, hne⟩
  · exact not_leases fun p hp => handle_zeroHandles (c := c) false hp

variable {s : Lent Key Layout Types} {t : Nat}

theorem IdleStep.lease (ha : s.1.shared.Apart)
    (hok : SwapsUnlent s (t, a)) (hs : IdleStep parse s.1.shared a pc' e) :
    LeaseStep s.1.shared (e.run s.1.shared) .idle a pc' := by
  cases hs with
  | readMultipleSymbols | writeMultipleSymbols =>
    exact .calm (Batch.resolving_go _).2 rfl rfl fun _ _ => Iff.rfl
  | swap zeroed types table => exact lease_swap zeroed types table hok
  | expand types layouts added =>
    exact .calm rfl rfl rfl fun _ _ => leases_expand ha types layouts added
  | zero values =>
    cases values with
    | false => exact lease_refresh ha
    | true =>
      refine .calm rfl rfl rfl fun m x => ?_
      have hnew : ¬((Effect.zero true).run s.1.shared).Leases m x :=
        not_leases fun p hp => handle_zeroHandles (c := s.1.shared) true hp
      exact iff_of_false hnew (not_leases hok)
  | sample => exact .calm rfl rfl rfl fun _ _ => leases_setValues _
  | getSymbol | readFromSymbol | bump | reconnect | ignored => exact .calm rfl rfl rfl fun _ _ => Iff.rfl

theorem PlanStep.lease (ha : s.1.shared.Apart)
    (hnz : ∀ x, (s.1.loc t).handle = some x → x ≠ 0) (hok : SwapsUnlent s (t, a))
    (hs : PlanStep parse s.1.shared (s.1.loc t) a pc' e) :
    LeaseStep s.1.shared (e.run s.1.shared) (s.1.loc t) a pc' := by
  generalize hpc : s.1.loc t = pc at hs hnz
  cases hs with
  | get hs => exact hs.lease ha hnz
  | read hs | batch hs => exact hs.lease
  | idle hs => exact hs.lease ha hok

end Moves

/-! ## The invariant -/

/-- Who holds a handle: the goroutine that has got it, or the entry it is stored in. -/
inductive Holder (Key : Type)
  | goroutine (t : Nat)
  | entry (n : Key)

def holds (s : State Key Layout Types) : Holder Key → UInt32 → Prop
  | .goroutine t, h => (s.loc t).handle = some h
  | .entry n, h => s.shared.Leases n h

structure LeaseInv (s : Lent Key Layout Types) : Prop where
  apart : s.1.shared.Apart
  nonzero : ∀ t h, (s.1.loc t).handle = some h → h ≠ 0
  exact : Exact {h | h ∈ s.2} (holds s.1)

theorem leaseInv_init (heap : SymId → Symbol Layout Types) (types : Types) :
    LeaseInv ((init heap types, []) : Lent Key Layout Types) where
  apart := ⟨fun p hp => (not_mem_nil hp).elim, nodup_nil, fun p hp => (not_mem_nil hp).elim⟩
  nonzero t h hh := by cases hh
  exact := by
    have hnone : ∀ w h, ¬holds (init heap types : State Key Layout Types) w h := by
      intro w h hw
      cases w with
      | goroutine => cases hw
      | entry =>
        obtain ⟨-, id, he, -⟩ := hw
        cases he
    exact ⟨fun h => iff_of_false not_mem_nil fun ⟨w, hw⟩ => hnone w h hw,
      fun w w' h hw => absurd hw (hnone w h)⟩

section Run

variable {parse : Parse Layout Types} {pc' : Pc Key Layout Types} {a : Act Key Layout Types}
  {s : Lent Key Layout Types} {t : Nat}

theorem holds_goroutine {u} : holds ⟨c', Function.update s.1.loc t pc'⟩ (.goroutine u) h ↔
      u = t ∧ pc'.handle = some h ∨ u ≠ t ∧ holds s.1 (.goroutine u) h := by
  show ((Function.update s.1.loc t pc') u).handle = some h ↔ _
  by_cases hu : u = t
  · subst hu
    simp
  · rw [Function.update_of_ne hu]
    simp [hu, holds]

variable {x : UInt32}

theorem mem_lend : x ∈ lend s.2 s.1 (t, a) ↔
      x ∈ issued a ∨ x ∈ s.2 ∧ x ∉ released s.1.shared (s.1.loc t) a := by
  simp [lend]

theorem LeaseInv.other (hi : LeaseInv s) {h₀} (ht : (s.1.loc t).handle = some h₀)
    {w} (hw : holds s.1 w x) (hne : w ≠ .goroutine t) : x ≠ h₀ := by
  rintro rfl
  exact hne (hi.exact.once w (.goroutine t) x hw ht)

section

variable (hi : LeaseInv s) (hok : FreshHandles s (t, a)) (hs : LeaseStep s.1.shared c' (s.1.loc t) a pc')

include hi hok hs

/-- **One step keeps the custody exact.** -/
theorem LeaseStep.exact :
    Exact {h | h ∈ lend s.2 s.1 (t, a)} (holds ⟨c', Function.update s.1.loc t pc'⟩) := by
  cases hs with
  | calm hpc hn hr hl =>
    refine hi.exact.congr (fun x => ?_) fun w x => ?_
    · simp [mem_lend, hn, hr]
    cases w with
    | goroutine u =>
      rw [holds_goroutine, hpc]
      by_cases hu : u = t
      · simp [hu, holds]
      · simp [hu]
    | entry m => exact hl m x
  | issue h₀ hpc hpc' ha hr hl =>
    subst ha
    refine hi.exact.issue (.goroutine t) h₀ hok.2 (fun x => ?_) fun w x => ?_
    · simp [mem_lend, hr, issued]
    cases w with
    | goroutine u =>
      rw [holds_goroutine, hpc']
      by_cases hu : u = t
      · simp [hu, holds, hpc, eq_comm]
      · simp [hu]
    | entry m => simpa [holds] using hl m x
  | release h₀ hpc hpc' hn hr hl =>
    have hother := fun w x => hi.other (w := w) (x := x) hpc
    refine hi.exact.retire {h₀} (fun x => ?_) fun w x => ?_
    · simp [mem_lend, hn, hr]
    cases w with
    | goroutine u =>
      rw [holds_goroutine, hpc']
      by_cases hu : u = t
      · simp [hu, holds, hpc, eq_comm]
      · simpa [hu] using hother (.goroutine u) x
    | entry m =>
      refine (hl m x).trans ⟨fun hm => ⟨hm, hother (.entry m) x hm (by simp)⟩, And.left⟩
  | store m₀ h₀ hpc hpc' hn hr hl =>
    have hother := fun w x => hi.other (w := w) (x := x) hpc
    refine hi.exact.move (.goroutine t) (.entry m₀) hpc (fun x => ?_) fun w x => ?_
    · simp [mem_lend, hn, hr]
    cases w with
    | goroutine u =>
      rw [holds_goroutine, hpc']
      by_cases hu : u = t
      · simp [hu, holds, hpc, eq_comm]
      · simpa [hu] using hother (.goroutine u) x
    | entry m =>
      have hm : s.1.shared.Leases m x ↔ s.1.shared.Leases m x ∧ x ≠ h₀ :=
        ⟨fun hm => ⟨hm, hother (.entry m) x hm (by simp)⟩, And.left⟩
      simpa [holds, ← hm] using hl m x
  | wipe hpc hpc' hn hr hl =>
    refine hi.exact.retire {x | ∃ m, s.1.shared.Leases m x} (fun x => ?_) fun w x => ?_
    · simp [mem_lend, hn, hr]
    cases w with
    | goroutine u =>
      rw [holds_goroutine, hpc']
      by_cases hu : u = t
      · simp [hu, holds, hpc]
      suffices hx : holds s.1 (.goroutine u) x → ¬∃ m, s.1.shared.Leases m x by simpa [hu] using hx
      rintro hw ⟨m, hm⟩
      cases hi.exact.once (.goroutine u) (.entry m) x hw hm
    | entry m =>
      exact iff_of_false (hl m x) fun hm => hm.2 ⟨m, hm.1⟩

theorem LeaseStep.nonzero (hx : pc'.handle = some h) : h ≠ 0 := by
  cases hs with
  | calm hpc => exact hi.nonzero t h (hpc ▸ hx)
  | issue h₀ _ hpc' ha =>
    subst ha
    cases hpc'.symm.trans hx
    exact hok.1
  | release _ _ hpc' | store _ _ _ hpc' | wipe _ hpc' =>
    rw [hpc'] at hx
    cases hx

end

/-- The PLC as it is, and loads that find no handle in the cache. -/
def Accounted (s : Lent Key Layout Types) (x : Nat × Act Key Layout Types) : Prop :=
  FreshHandles s x ∧ SwapsUnlent s x

theorem leaseInv_step {s' x} (hi : LeaseInv s)
    (hok : Accounted s x) (hs : observe (step parse) lend s x = some s') : LeaseInv s' := by
  obtain ⟨t, a⟩ := x
  obtain ⟨hs, hout⟩ := observe_eq_some.1 hs
  obtain ⟨pc', e, hp, hs'⟩ := step_cases hs
  have hl := hp.lease hi.apart (hi.nonzero t) hok.2
  refine ⟨?_, fun u h hu => ?_, ?_⟩
  · rw [hs']
    exact hi.apart.run hp
  · rw [hs'] at hu
    by_cases hut : u = t
    · subst hut
      rw [Conf.loc_self] at hu
      exact hl.nonzero hi hok.1 hu
    · rw [Conf.loc_of_ne hut] at hu
      exact hi.nonzero u h hu
  · rw [hs', hout]
    exact hl.exact hi hok.1

theorem leaseInv {heap : SymId → Symbol Layout Types} {types}
    (h : Run (observe (step parse) lend) Accounted (init heap types, []) s) : LeaseInv s :=
  h.invariant (leaseInv_init heap types) fun _ _ _ hi hok hs => leaseInv_step hi hok hs

/-- **No handle is lost**, in every run whose loads find no handle in the cache: when no call is under
    way, a handle that is out is the handle of the entry of exactly one name. -/
theorem handles_accounted {heap : SymId → Symbol Layout Types} {types : Types}
    (hr : Run (observe (step parse) lend) Accounted (init heap types, []) s) (hq : Quiescent s.1)
    (hout : h ∈ s.2) : ∃! n, ∃ id, s.1.shared.entry n = some id ∧ (s.1.shared.heap id).handle = h := by
  have hi := leaseInv hr
  obtain ⟨w, hw⟩ := (hi.exact.held h).1 hout
  cases w with
  | goroutine t =>
    -- an idle goroutine has no handle
    have hw : (s.1.loc t).handle = some h := hw
    rw [hq t] at hw
    cases hw
  | entry n =>
    have hw : s.1.shared.Leases n h := hw
    refine ⟨n, hw.2, fun m hm => ?_⟩
    have heq := hi.exact.once (.entry m) (.entry n) h ⟨hw.1, hm⟩ hw
    exact (Holder.entry.inj heq)

end Run

/-! ## A run that refreshes before it loads, and one that loads over a handle -/

namespace Example

/-- Two goroutines resolve the symbol `0` at once. -/
def resolveTwice : List (Nat × Act Nat Unit Unit) :=
  [(0, .swap true none before), (0, .getSymbol 0), (1, .getSymbol 0), (0, .next), (1, .next),
    (0, .handle 7), (1, .handle 8), (1, .next), (0, .next)]

end Example

open Example

instance (s : Lent Key Layout Types) (x : Nat × Act Key Layout Types) : Decidable (FreshHandles s x) := by
  obtain ⟨t, a⟩ := x
  unfold FreshHandles
  induction a using Act.casesOn <;> infer_instance

instance (s : Lent Key Layout Types) (x : Nat × Act Key Layout Types) : Decidable (SwapsUnlent s x) := by
  obtain ⟨t, a⟩ := x
  unfold SwapsUnlent
  induction a using Act.casesOn with
  | zero b => cases b <;> infer_instance
  | _ => infer_instance

/-- A step of one of the first two goroutines. -/
def ByTwo (s : Lent Key Layout Types) (x : Nat × Act Key Layout Types) : Prop :=
  x.1 < 2 ∧ Accounted s x

instance (s : Lent Key Layout Types) (x : Nat × Act Key Layout Types) : Decidable (ByTwo s x) :=
  inferInstanceAs (Decidable (x.1 < 2 ∧ FreshHandles s x ∧ SwapsUnlent s x))

theorem idle_of_byTwo {parse} {ok : Lent Key Layout Types → Nat × Act Key Layout Types → Prop}
    (hok : ∀ s x, ok s x → x.1 < 2) {s₀ s}
    (h₀ : ∀ t, 2 ≤ t → s₀.1.loc t = .idle) (h : Run (observe (step parse) lend) ok s₀ s) :
    ∀ t, 2 ≤ t → s.1.loc t = .idle := by
  refine h.invariant (P := fun s => ∀ t, 2 ≤ t → s.1.loc t = .idle) h₀ fun s x s' hi hx hs t ht => ?_
  obtain ⟨pc', e, -, hs'⟩ := step_cases (observe_eq_some.1 hs).1
  have hne : t ≠ x.1 := fun heq => absurd (hok s x hx) (Nat.not_lt.2 (heq ▸ ht))
  rw [hs', Conf.loc_of_ne hne]
  exact hi t ht

theorem quiescent_of_byTwo {ok : Lent Nat Unit Unit → Nat × Act Nat Unit Unit → Prop}
    (hok : ∀ s x, ok s x → x.1 < 2) {s}
    (h : Run (observe (step noParse) lend) ok (init blank (), []) s)
    (h0 : s.1.loc 0 = .idle) (h1 : s.1.loc 1 = .idle) : Quiescent s.1 := by
  intro t
  match t with
  | 0 => exact h0
  | 1 => exact h1
  | t + 2 => exact idle_of_byTwo hok (fun _ _ => rfl) h (t + 2) (Nat.le_add_left 2 t)

/-- Two goroutines resolve a symbol and the slower one releases its handle; RefreshSymbols releases the
    other and loads the next table, and the symbol is resolved again. -/
theorem handles_accounted_refreshed : ∃ s : Lent Nat Unit Unit,
      Run (observe (step noParse) lend) Accounted (init blank (), []) s ∧
      Quiescent s.1 ∧ 9 ∈ s.2 ∧
      ∃! n, ∃ id, s.1.shared.entry n = some id ∧ (s.1.shared.heap id).handle = 9 := by
  obtain ⟨s, hrun, h0, h1, hout⟩ := exists_run (observe (step noParse) lend) ByTwo (init blank (), [])
    (fun s => s.1.loc 0 = .idle ∧ s.1.loc 1 = .idle ∧ 9 ∈ s.2)
    (resolveTwice ++ [(0, .zero false), (0, .swap true none after),
      (1, .getSymbol 0), (1, .next), (1, .handle 9), (1, .next)]) (by decide +kernel)
  have hq : Quiescent s.1 := quiescent_of_byTwo (fun _ _ hx => hx.1) hrun h0 h1
  have hr : Run (observe (step noParse) lend) Accounted (init blank (), []) s :=
    hrun.weaken fun _ _ hx => hx.2
  exact ⟨s, hr, hq, hout, handles_accounted hr hq hout⟩

/-- LoadSymbols comes while the entry has the handle 7: the new entry has none, and the PLC still holds
    7. -/
theorem load_forgets_handle : ¬∀ s : Lent Nat Unit Unit,
      Run (observe (step noParse) lend) FreshHandles (init blank (), []) s →
      Quiescent s.1 → ∀ h ∈ s.2,
        ∃! n, ∃ id, s.1.shared.entry n = some id ∧ (s.1.shared.heap id).handle = h := by
  intro hall
  obtain ⟨s, hrun, h0, h1, hout, hsym, hz⟩ := exists_run (observe (step noParse) lend)
    (fun (s : Lent Nat Unit Unit) x => x.1 < 2 ∧ FreshHandles s x) (init blank (), [])
    (fun s => s.1.loc 0 = .idle ∧ s.1.loc 1 = .idle ∧ s.2 = [7] ∧
      s.1.shared.symbols = [(0, 1)] ∧ (s.1.shared.heap 1).handle = 0)
    [(0, .swap true none before), (0, .getSymbol 0), (0, .next), (0, .handle 7), (0, .next),
      (0, .swap true none after)] (by decide +kernel)
  have hq : Quiescent s.1 := quiescent_of_byTwo (fun _ _ hx => hx.1) hrun h0 h1
  obtain ⟨n, ⟨id, he, hh⟩, -⟩ :=
    hall s (hrun.weaken fun _ _ hx => hx.2) hq 7 (by rw [hout]; exact mem_singleton.2 rfl)
  have hm := mem_of_entry he
  rw [hsym, mem_singleton] at hm
  obtain rfl : id = 1 := congrArg Prod.snd hm
  rw [hz] at hh
  exact absurd hh (by decide)

end GoAds.Symbols
