import GoAds.Symbols.Heap

/-!
# `Symbols.Address` — a batch addresses PLC memory through live entries

ReadMultipleSymbols and WriteMultipleSymbols get a symbol from `getSymbol` under one lock and select its
address under another.  A symbol without a handle is addressed directly, by the group and the offset its
table gave it.  `loadSymbols` zeroes the handles of the entries it replaces so that whoever still holds
one fails fast; in a batch the zero selects the direct address instead, which belongs to a table that is
gone.
-/

namespace GoAds.Symbols

open Interleaving

variable {Key Layout Types : Type}

/-- The name and the object that a batch has resolved, and not selected the address of. -/
def Pc.resolved : Pc Key Layout Types → Option (Key × SymId)
  | .serialize n id _ | .select n id _ => some (n, id)
  | _ => none

variable [DecidableEq Key]

/-- No swap comes while a batch holds a symbol between `getSymbol` and the selection of its address,
    unless the symbol has no direct address, or the swap leaves it its handle. -/
def SwapsApart (s : State Key Layout Types) (x : Nat × Act Key Layout Types) : Prop :=
  match x.2 with
  | .swap zeroed _ _ => ∀ u n id, (s.loc u).resolved = some (n, id) →
      (s.shared.heap id).desc.group = 0 ∨ zeroed = false ∧ (s.shared.heap id).handle ≠ 0
  | _ => True

/-! ## What is resolved -/

variable {parse : Parse Layout Types} {c : Cache Key Layout Types} {pc pc' : Pc Key Layout Types}
  {a : Act Key Layout Types} {e : Effect Key Layout Types} {n : Key} {id : SymId}

omit [DecidableEq Key] in
theorem Caller.resolved_got {k : Caller Key Layout Types} {m : Key} {i : SymId}
    (h : (k.got m i).resolved = some (n, id)) : m = n ∧ i = id := by
  cases k with
  | alone | read => cases h
  | batch b =>
    by_cases hw : b.write = true
    · rw [Caller.got, if_pos hw] at h
      simpa [Pc.resolved] using h
    · rw [Caller.got, if_neg hw] at h
      simpa [Pc.resolved] using h

omit [DecidableEq Key] in
theorem Batch.resolved_go (b : Batch Key Layout Types) : b.go.resolved = none := by
  unfold Batch.go
  split
  · rfl
  · split <;> rfl

omit [DecidableEq Key] in
theorem Caller.resolved_failed (k : Caller Key Layout Types) : k.failed.resolved = none := by
  cases k with
  | batch b => exact b.resolved_go
  | _ => rfl

/-- What a goroutine has resolved after a step, it had before, or it is the entry of its name. -/
theorem PlanStep.resolved (hs : PlanStep parse c pc a pc' e) (h : pc'.resolved = some (n, id)) :
    pc.resolved = some (n, id) ∨ (e.run c).entry n = some id := by
  cases hs with
  | get hs =>
    cases hs with
    | hit m k i he | duplicate m i x k he | setHandle m i x k he | existing m d x info ans k i he =>
      obtain ⟨rfl, rfl⟩ := Caller.resolved_got h
      exact .inr he
    | insert =>
      obtain ⟨rfl, rfl⟩ := Caller.resolved_got h
      right
      exact List.lookup_cons_self
    | handleFail m i k | infoFail m k | answerFail m d info k | swapped m i x k =>
      rw [Caller.resolved_failed] at h
      cases h
    | _ => cases h
  | read hs => cases hs <;> cases h
  | batch hs =>
    cases hs with
    | serialized => exact .inl h
    | unserializable m i b | select m i b | retry b gen r =>
      rw [Batch.resolved_go] at h
      cases h
    | _ => cases h
  | idle hs =>
    cases hs with
    | readMultipleSymbols names gen r | writeMultipleSymbols names gen r =>
      rw [Batch.resolved_go] at h
      cases h
    | _ => cases h

/-! ## The invariant -/

/-- An object that a batch has resolved as `n`: it is addressed directly only while it is the entry of
    `n`. -/
structure Usable (c : Cache Key Layout Types) (n : Key) (id : SymId) : Prop where
  allocated : id < c.next
  /-- It is no other name's entry. -/
  only : c.listed id = true → c.entry n = some id
  usable : c.entry n = some id ∨ (c.heap id).handle ≠ 0 ∨ (c.heap id).desc.group = 0

theorem Usable.of_entry (hc : c.Closed) (h : c.entry n = some id) : Usable c n id :=
  ⟨hc.entry_lt h, fun _ => h, .inl h⟩

theorem not_listed_swap (zeroed : Bool) (types : Option Types) (table : List (Key × Desc Layout))
    (hid : id < c.next) : ((Effect.swap zeroed types table).run c).listed id = false := by
  by_contra hl
  obtain ⟨p, hp, hpid⟩ := List.any_eq_true.1 (Bool.not_eq_false _ ▸ hl)
  have hp' : c.next ≤ p.2 := (Cache.of_mem_mapOf hp).1
  have hpid' : p.2 = id := by simpa using hpid
  rw [hpid'] at hp'
  exact absurd hid (Nat.not_lt.2 hp')

theorem listed_of_run (hid : id < c.next) (h : (e.run c).listed id = true) : c.listed id = true := by
  obtain ⟨p, hp, hpid⟩ := List.any_eq_true.1 h
  rcases Effect.of_mem_symbols_run hp with hp | hp
  · exact List.any_eq_true.2 ⟨p, hp, hpid⟩
  have hpid' : p.2 = id := by simpa using hpid
  rw [hpid'] at hp
  exact absurd hid (Nat.not_lt.2 hp.1)

/-- **A step keeps an object usable**, when a swap leaves it its handle. -/
theorem Usable.run (hu : Usable c n id) (hs : PlanStep parse c pc a pc' e)
    (hswap : ∀ zeroed types table, e = .swap zeroed types table →
      (c.heap id).desc.group = 0 ∨ zeroed = false ∧ (c.heap id).handle ≠ 0) : Usable (e.run c) n id := by
  have hlt : id < (e.run c).next := Nat.lt_of_lt_of_le hu.allocated Effect.next_le_run
  have honly : (e.run c).listed id = true → (e.run c).entry n = some id := by
    intro hl
    have he := hu.only (listed_of_run hu.allocated hl)
    rcases Effect.entry_run he hs.insert_fresh with he' | ⟨zeroed, types, table, rfl⟩
    · exact he'
    · rw [not_listed_swap zeroed types table hu.allocated] at hl
      cases hl
  refine ⟨hlt, honly, ?_⟩
  by_cases hz : ((e.run c).heap id).handle = 0
  · -- no handle after the step: it is the entry, or it has no direct address
    by_cases hh : (c.heap id).handle = 0
    · rcases hu.usable with he | hne | hg
      · rcases Effect.entry_run he hs.insert_fresh with he' | ⟨zeroed, types, table, rfl⟩
        · exact .inl he'
        rcases hswap zeroed types table rfl with hg | ⟨-, hne⟩
        · exact .inr (.inr ((Effect.group_run hu.allocated).trans hg))
        · exact absurd hh hne
      · exact absurd hh hne
      · exact .inr (.inr ((Effect.group_run hu.allocated).trans hg))
    rcases Effect.handle_run hu.allocated hh hz with ⟨hl, values, rfl⟩ | ⟨types, table, rfl⟩ | rfl
    · exact .inl (hu.only hl)
    · rcases hswap true types table rfl with hg | ⟨hf, -⟩
      · exact .inr (.inr ((Effect.group_run hu.allocated).trans hg))
      · cases hf
    · exact absurd hs.setHandle_zero hh
  · exact .inr (.inl hz)

structure AddressInv (s : State Key Layout Types) : Prop where
  closed : s.shared.Closed
  usable : ∀ u n id, (s.loc u).resolved = some (n, id) → Usable s.shared n id

theorem addressInv_init (heap : SymId → Symbol Layout Types) (types : Types) :
    AddressInv (init heap types : State Key Layout Types) where
  closed _ hp := nomatch hp
  usable _ _ _ h := nomatch h

variable {x : Nat × Act Key Layout Types} {s : State Key Layout Types}

theorem addressInv_step {s'}
    (hi : AddressInv s) (hok : SwapsApart s x) (hs : step parse s x = some s') : AddressInv s' := by
  obtain ⟨pc', e, hp, rfl⟩ := step_cases hs
  have hkeep : ∀ u n id, (s.loc u).resolved = some (n, id) → Usable (e.run s.shared) n id := by
    intro u n id hr
    refine (hi.usable u n id hr).run hp fun zeroed types table he => ?_
    subst he
    have ha : x.2 = .swap zeroed types table := hp.swap_label
    unfold SwapsApart at hok
    rw [ha] at hok
    exact hok u n id hr
  refine ⟨hi.closed.run, fun u n id hr => ?_⟩
  by_cases hu : u = x.1
  · subst hu
    rw [Conf.loc_self] at hr
    rcases hp.resolved hr with hr' | he
    · exact hkeep x.1 n id hr'
    · exact .of_entry hi.closed.run he
  · rw [Conf.loc_of_ne hu] at hr
    exact hkeep u n id hr

theorem addressInv {heap : SymId → Symbol Layout Types} {types}
    (h : Run (step parse) SwapsApart (init heap types) s) : AddressInv s :=
  h.invariant (addressInv_init heap types) fun _ _ _ hi hok hs => addressInv_step hi hok hs

/-- **An item is built from a direct address only while the symbol is the entry of its name**, in every
    run that keeps swaps away from the batches that are selecting an address. -/
theorem select_live {heap : SymId → Symbol Layout Types} {types : Types} {s : State Key Layout Types}
    (h : Run (step parse) SwapsApart (init heap types) s) {t : Nat} {b : Batch Key Layout Types}
    (ht : s.loc t = .select n id b) (hd : (s.shared.heap id).direct = true) :
    s.shared.entry n = some id := by
  have hu : Usable s.shared n id := (addressInv h).usable t n id (by rw [ht]; rfl)
  have hd' : (s.shared.heap id).handle = 0 ∧ (s.shared.heap id).desc.group ≠ 0 := by
    simpa [Symbol.direct] using hd
  rcases hu.usable with he | hh | hg
  · exact he
  · exact absurd hd'.1 hh
  · exact absurd hg hd'.2

/-! ## A run that loads, refreshes and reads, and one whose load comes too early

The symbol `0` lies at `0x4020:16` in the first table and at `0x4020:64` in the second. -/

namespace Example

def noParse : Parse Unit Unit := fun _ _ _ _ => none

def blank : SymId → Symbol Unit Unit := fun _ => ⟨⟨(), 0, 0, 0, []⟩, 0, none⟩

def before : List (Nat × Desc Unit) := [(0, ⟨(), 4, 0x4020, 16, []⟩)]

def after : List (Nat × Desc Unit) := [(0, ⟨(), 4, 0x4020, 64, []⟩)]

/-- The session after its first load. -/
def loaded : State Nat Unit Unit where
  shared := (Effect.swap true none before).run (init blank ()).shared
  loc := Function.update (init blank ()).loc 0 .idle

/-- WriteMultipleSymbols resolves the symbol and serialises its value. -/
def resolve : List (Nat × Act Nat Unit Unit) :=
  [(0, .writeMultipleSymbols [0]), (0, .next), (0, .handle 7), (0, .next), (0, .next)]

def held : Batch Nat Unit Unit :=
  { write := true, names := [0], todo := [], items := [], gen := 1, retriesLeft := 1 }

end Example

open Example

omit [DecidableEq Key]

def NoSwap (_ : State Key Layout Types) (x : Nat × Act Key Layout Types) : Prop :=
  match x.2 with
  | .swap _ _ _ => False
  | _ => True

instance (s : State Key Layout Types) (x : Nat × Act Key Layout Types) : Decidable (NoSwap s x) := by
  unfold NoSwap
  split <;> infer_instance

theorem NoSwap.apart (h : NoSwap s x) : SwapsApart s x := by
  unfold NoSwap at h
  unfold SwapsApart
  split
  · rename_i hx
    rw [hx] at h
    exact h.elim
  · trivial

theorem run_loaded : Run (step noParse) SwapsApart (init blank ()) loaded := by
  refine .snoc (a := (0, .swap true none before)) .refl ?_ rfl
  -- nobody has resolved anything yet
  exact fun u n id hr => nomatch hr

/-- The table is loaded and a batch resolves the symbol; RefreshSymbols zeroes the handle before the
    batch selects the address, which is then the direct one of the live entry. -/
theorem select_live_refreshed : ∃ s, Run (step noParse) SwapsApart (init blank ()) s ∧
      s.loc 0 = .select 0 0 held ∧ (s.shared.heap 0).direct = true ∧
      s.shared.entry 0 = some 0 := by
  obtain ⟨s, hrun, hb, hd⟩ := exists_run (step noParse) NoSwap loaded
    (fun s => s.loc 0 = .select 0 0 held ∧ (s.shared.heap 0).direct = true)
    (resolve ++ [(1, .zero true)]) (by decide +kernel)
  have h := run_loaded.trans (hrun.weaken fun _ _ h => h.apart)
  exact ⟨s, h, hb, hd, select_live h hb hd⟩

/-- The second load comes between `getSymbol` and the selection: the item is built from the address that
    the first table gave the symbol, in a cache that has the symbol elsewhere. -/
theorem select_superseded : ¬∀ s : State Nat Unit Unit, Run (step noParse) anyStep (init blank ()) s →
      ∀ t n id b, s.loc t = .select n id b → (s.shared.heap id).direct = true →
        s.shared.entry n = some id := by
  intro hall
  exact not_forall_run ((0, .swap true none before) :: resolve ++ [(1, .swap true none after)])
    (by decide +kernel) fun s hrun => hall s hrun 0 0 0 held

end GoAds.Symbols
