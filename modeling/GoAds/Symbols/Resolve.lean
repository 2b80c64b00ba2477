import GoAds.Symbols.Address

/-!
# `Symbols.Resolve` — what the on-demand path of `getSymbol` publishes

A name without an entry is resolved by two requests outside the lock, and inserted under it.  The entry
that had been found at the start is compared again before a handle is stored in it; the on-demand path
has nothing to compare, and checks only that the name has no entry *now*.  So a swap or a reconnect
during the requests goes unnoticed, and an entry that a load has put there meanwhile is returned as it
is, without a handle.
-/

namespace GoAds.Symbols

open Interleaving

variable {Key Layout Types : Type}

/-- The name that is being resolved on demand. -/
def Pc.resolving : Pc Key Layout Types → Option Key
  | .infoRpc n _ | .onDemandRpc n _ _ _ | .insert n _ _ _ _ _ => some n
  | _ => none

/-- When the answers came that have come so far. -/
def Pc.stamps : Pc Key Layout Types → List Stamp
  | .onDemandRpc _ _ info _ => [info]
  | .insert _ _ _ info ans _ => [info, ans]
  | _ => []

/-- The handle that the PLC has given out for the symbol. -/
def Pc.handle : Pc Key Layout Types → Option UInt32
  | .setHandle _ _ h _ | .insert _ _ h _ _ _ => some h
  | _ => none

/-- The PLC hands out no handle 0. -/
def NonZero (x : Nat × Act Key Layout Types) : Prop :=
  match x.2 with
  | .handle h => h ≠ 0
  | _ => True

instance (x : Nat × Act Key Layout Types) : Decidable (NonZero x) := by
  obtain ⟨t, a⟩ := x
  unfold NonZero
  cases a <;> infer_instance

variable [DecidableEq Key]

/-- What the rest of the session may do while names are being resolved on demand.

    * The cache is swapped only before the PLC has answered, and by a table without the name.
    * `LoadDataTypes` adds no entry of the name.
    * Handles are zeroed only while the name has no entry.
    * The connection changes only before the PLC has answered, or when the name has an entry. -/
def Undisturbed (s : State Key Layout Types) (x : Nat × Act Key Layout Types) : Prop :=
  match x.2 with
  | .swap _ _ table => ∀ u n, (s.loc u).resolving = some n →
      (s.loc u).stamps = [] ∧ n ∉ table.map Prod.fst
  | .expand _ _ added => ∀ u n, (s.loc u).resolving = some n → n ∉ added.map Prod.fst
  | .zero _ => ∀ u n, (s.loc u).resolving = some n → s.shared.entry n = none
  | .reconnect => ∀ u n, (s.loc u).resolving = some n →
      (s.loc u).stamps = [] ∨ s.shared.entry n ≠ none
  | _ => True

/-- What `getSymbol` returns in a critical section. -/
def returned (c : Cache Key Layout Types) : Pc Key Layout Types → Option SymId
  | .lookup n _ => (c.entry n).filter fun id => (c.heap id).handle ≠ 0
  | .setHandle n id _ _ => if c.entry n = some id then some id else none
  | .insert n _ _ _ _ _ => some ((c.entry n).getD c.next)
  | _ => none

/-! ## One name -/

/-- What holds of a name while it is resolved on demand: as long as it has no entry the answers are of
    this cache and this connection, and the entry it may have has a handle. -/
structure Pending (c : Cache Key Layout Types) (n : Key) (sts : List Stamp) : Prop where
  current : c.entry n = none → ∀ st ∈ sts, st = c.stamp
  handle : ∀ id, c.entry n = some id → (c.heap id).handle ≠ 0

/-- A critical section that leaves a pending name alone. -/
def Effect.Spares (c : Cache Key Layout Types) (n : Key) (sts : List Stamp) : Effect Key Layout Types → Prop
  | .setHandle _ h | .insert _ _ h => h ≠ 0
  | .swap _ _ table => sts = [] ∧ n ∉ table.map Prod.fst
  | .expand _ _ added => n ∉ added.map Prod.fst
  | .zero _ => c.entry n = Option.none
  | .reconnect => sts = [] ∨ c.entry n ≠ Option.none
  | _ => True

variable {parse : Parse Layout Types} {c : Cache Key Layout Types} {pc pc' : Pc Key Layout Types}
  {a : Act Key Layout Types} {e : Effect Key Layout Types} {n : Key} {sts : List Stamp}

theorem Effect.stamp_run :
    (e.run c).stamp = c.stamp ∨ (∃ z ty table, e = .swap z ty table) ∨ e = .reconnect := by
  cases e with
  | store ds =>
    left
    have h := Cache.onlyValues_setValues (c := c) (ds.map fun p => (p.1, some p.2))
    exact congrArg₂ Stamp.mk h.swaps h.connection
  | drop ids =>
    left
    have h := Cache.onlyValues_setValues (c := c) (ids.map fun id => (id, Option.none))
    exact congrArg₂ Stamp.mk h.swaps h.connection
  | swap z ty table => exact .inr (.inl ⟨z, ty, table, rfl⟩)
  | reconnect => exact .inr (.inr rfl)
  | _ => exact .inl rfl

theorem Pending.handle_run (hp : Pending c n sts) (hc : c.Closed) (hsp : e.Spares c n sts) {id}
    (he : (e.run c).entry n = some id) : ((e.run c).heap id).handle ≠ 0 := by
  rcases Effect.entry_of_run he with ⟨he, hns⟩ | ⟨d, hadd, -⟩
  · -- an entry from before: its handle is zeroed in three ways, all of which are spared
    intro hz
    rcases Effect.handle_run (hc.entry_lt he) (hp.handle id he) hz with
      ⟨-, v, rfl⟩ | ⟨ty, table, rfl⟩ | rfl
    · exact nomatch he.symm.trans hsp
    · exact hns _ _ _ rfl
    · exact hsp rfl
  -- a new one: the name is in no table, so it is an insert
  cases hadd with
  | insert x =>
    obtain ⟨hin, -, hx⟩ := heap_insert (c := c) n d x
    rw [hin] at he
    obtain rfl : c.next = id := Option.some.inj he
    rw [hx]
    exact hsp
  | swap z ty table hm => exact absurd (List.mem_map.2 ⟨_, hm, rfl⟩) hsp.2
  | expand ty ls added hm => exact absurd (List.mem_map.2 ⟨_, hm, rfl⟩) hsp

theorem Pending.current_run (hp : Pending c n sts) (hsp : e.Spares c n sts)
    (hins : ∀ key d h, e = .insert key d h → c.entry key = none)
    (he : (e.run c).entry n = none) : ∀ st ∈ sts, st = (e.run c).stamp := by
  intro st hst
  cases hn : c.entry n with
  | some =>
    rcases Effect.entry_run hn hins with h | ⟨z, ty, table, rfl⟩
    · exact nomatch h.symm.trans he
    · rw [hsp.1] at hst
      cases hst
  | none =>
    rcases Effect.stamp_run (e := e) (c := c) with h | ⟨z, ty, table, rfl⟩ | rfl
    · rw [h]
      exact hp.current hn st hst
    · rw [hsp.1] at hst
      cases hst
    rcases hsp with hs | hs
    · rw [hs] at hst
      cases hst
    · exact absurd hn hs

/-- **A pending name stays pending** through a critical section that spares it. -/
theorem Pending.run (hp : Pending c n sts) (hc : c.Closed) (hsp : e.Spares c n sts)
    (hins : ∀ key d h, e = .insert key d h → c.entry key = none) : Pending (e.run c) n sts :=
  ⟨hp.current_run hsp hins, fun _ he => hp.handle_run hc hsp he⟩

/-! ## One goroutine -/

omit [DecidableEq Key] in
theorem Batch.resolving_go (b : Batch Key Layout Types) : b.go.resolving = none ∧ b.go.handle = none := by
  unfold Batch.go
  split
  · exact ⟨rfl, rfl⟩
  · split <;> exact ⟨rfl, rfl⟩

omit [DecidableEq Key] in
theorem Caller.resolving_got (k : Caller Key Layout Types) (m : Key) (id : SymId) :
    (k.got m id).resolving = none ∧ (k.got m id).handle = none := by
  cases k with
  | alone | read => exact ⟨rfl, rfl⟩
  | batch b =>
    by_cases hw : b.write = true
    · rw [Caller.got, if_pos hw]
      exact ⟨rfl, rfl⟩
    · rw [Caller.got, if_neg hw]
      exact ⟨rfl, rfl⟩

omit [DecidableEq Key] in
theorem Caller.resolving_failed (k : Caller Key Layout Types) :
    k.failed.resolving = none ∧ k.failed.handle = none := by
  cases k with
  | batch b => exact b.resolving_go
  | _ => exact ⟨rfl, rfl⟩

/-- How a name comes to be pending, and which answer a step adds. -/
inductive Pc.Resolves (c : Cache Key Layout Types) (pc pc' : Pc Key Layout Types) (n : Key) : Prop
  | miss (he : c.entry n = none) (hs : pc'.stamps = [])
  | answer (hr : pc.resolving = some n) (hs : pc'.stamps = pc.stamps ++ [c.stamp])

/-- What a goroutine is at after its step: it waits for answers about a name, or it holds a handle, which
    comes from the PLC. -/
theorem PlanStep.asks (hs : PlanStep parse c pc a pc' e) :
    (∀ n, pc'.resolving = some n → e = .none ∧ Pc.Resolves c pc pc' n) ∧
      ∀ h, pc'.handle = some h → a = .handle h := by
  have hquiet : pc'.resolving = none ∧ pc'.handle = none →
      (∀ n, pc'.resolving = some n → e = .none ∧ Pc.Resolves c pc pc' n) ∧
        ∀ h, pc'.handle = some h → a = .handle h := by
    rintro ⟨hr, hh⟩
    rw [hr, hh]
    exact ⟨nofun, nofun⟩
  cases hs with
  | get hs =>
    cases hs with
    | miss m k he =>
      refine ⟨fun n h => ?_, nofun⟩
      obtain rfl : m = n := by simpa [Pc.resolving] using h
      exact ⟨rfl, .miss he rfl⟩
    | info => exact ⟨fun n h => ⟨rfl, .answer h rfl⟩, nofun⟩
    | answer => exact ⟨fun n h => ⟨rfl, .answer h rfl⟩, fun h hh => congrArg _ (Option.some.inj hh)⟩
    | handle => exact ⟨nofun, fun h hh => congrArg _ (Option.some.inj hh)⟩
    | hit m k i | duplicate m i x k | setHandle m i x k | existing m d x info ans k i
    | insert m d x info ans k => exact hquiet (k.resolving_got _ _)
    | handleFail m i k | infoFail m k | answerFail m d info k | swapped m i x k =>
      exact hquiet k.resolving_failed
    | _ => exact ⟨nofun, nofun⟩
  | read hs => cases hs <;> exact ⟨nofun, nofun⟩
  | batch hs =>
    cases hs with
    | unserializable | select | retry => exact hquiet (Batch.resolving_go _)
    | _ => exact ⟨nofun, nofun⟩
  | idle hs =>
    cases hs with
    | readMultipleSymbols | writeMultipleSymbols => exact hquiet (Batch.resolving_go _)
    | _ => exact ⟨nofun, nofun⟩

/-! ## The invariant -/

structure ResolveInv (s : State Key Layout Types) : Prop where
  closed : s.shared.Closed
  handle : ∀ u h, (s.loc u).handle = some h → h ≠ 0
  pending : ∀ u n, (s.loc u).resolving = some n → Pending s.shared n (s.loc u).stamps

/-- The guards, and the handles that the goroutine holds, make the critical section spare a name. -/
theorem PlanStep.spares {s t u} (hs : PlanStep parse s.shared (s.loc t) a pc' e)
    (hh : ∀ h, (s.loc t).handle = some h → h ≠ 0) (hok : Undisturbed s (t, a))
    (hr : (s.loc u).resolving = some n) : e.Spares s.shared n (s.loc u).stamps := by
  generalize hpc : s.loc t = pc at hs hh
  cases hs with
  | get hs =>
    cases hs with
    | setHandle m i x | insert m d x => exact hh x rfl
    | _ => trivial
  | read hs | batch hs => cases hs <;> trivial
  | idle hs =>
    cases hs with
    | swap | expand | zero | reconnect => exact hok u n hr
    | _ => trivial

theorem resolveInv_init (heap : SymId → Symbol Layout Types) (types : Types) :
    ResolveInv (init heap types : State Key Layout Types) where
  closed _ hp := nomatch hp
  handle _ _ h := nomatch h
  pending _ _ h := nomatch h

variable {x : Nat × Act Key Layout Types}

theorem resolveInv_step {s s' : State Key Layout Types}
    (hi : ResolveInv s) (hnz : NonZero x) (hok : Undisturbed s x) (hs : step parse s x = some s') :
    ResolveInv s' := by
  obtain ⟨pc', e, hp, rfl⟩ := step_cases hs
  refine ⟨hi.closed.run, fun u h hh => ?_, fun u n hr => ?_⟩
  · by_cases hu : u = x.1
    · subst hu
      rw [Conf.loc_self] at hh
      have ha := hp.asks.2 h hh
      unfold NonZero at hnz
      rw [ha] at hnz
      exact hnz
    · rw [Conf.loc_of_ne hu] at hh
      exact hi.handle u h hh
  · by_cases hu : u = x.1
    · subst hu
      rw [Conf.loc_self] at hr ⊢
      obtain ⟨rfl, hres⟩ := hp.asks.1 n hr
      cases hres with
      | miss he hs =>
        rw [hs]
        exact ⟨fun _ st hst => (nomatch hst), fun id hid => nomatch hid.symm.trans he⟩
      | answer hr' hs =>
        have hpend := hi.pending x.1 n hr'
        refine ⟨fun he st hst => ?_, hpend.handle⟩
        rw [hs] at hst
        rcases List.mem_append.1 hst with hst | hst
        · exact hpend.current he st hst
        · exact List.mem_singleton.1 hst
    · rw [Conf.loc_of_ne hu] at hr ⊢
      exact (hi.pending u n hr).run hi.closed (hp.spares (hi.handle x.1) hok hr) hp.insert_fresh

/-- The PLC hands out handles other than 0, and nothing disturbs a name that is being resolved. -/
def Resolvable (s : State Key Layout Types) (x : Nat × Act Key Layout Types) : Prop :=
  NonZero x ∧ Undisturbed s x

theorem resolveInv {heap : SymId → Symbol Layout Types} {types : Types} {s : State Key Layout Types}
    (h : Run (step parse) Resolvable (init heap types) s) : ResolveInv s :=
  h.invariant (resolveInv_init heap types) fun _ _ _ hi hok hs => resolveInv_step hi hok.1 hok.2 hs

/-- What is returned has a handle after the critical section that returns it. -/
theorem PlanStep.handle_returned (hs : PlanStep parse c pc .next pc' e)
    (hh : ∀ h, pc.handle = some h → h ≠ 0) (hp : ∀ n, pc.resolving = some n → Pending c n pc.stamps)
    {id} (hr : returned c pc = some id) : ((e.run c).heap id).handle ≠ 0 := by
  cases hs with
  | get hs =>
    cases hs with
    | hit m k i he hne =>
      simp only [returned, he, Option.filter, decide_eq_true hne, if_true, Option.some.injEq] at hr
      subst hr
      exact hne
    | needHandle m k i he hz =>
      simp [returned, he, Option.filter, hz] at hr
    | miss m k he | swapped m i x k he => simp [returned, he] at hr
    | duplicate m i x k he hne =>
      simp only [returned, if_pos he, Option.some.injEq] at hr
      subst hr
      exact hne
    | setHandle m i x k he hz =>
      simp only [returned, if_pos he, Option.some.injEq] at hr
      subst hr
      show ((c.setHandle i x).heap i).handle ≠ 0
      rw [Cache.handle_setHandle]
      exact hh x rfl
    | existing m d x info ans k i he =>
      simp only [returned, he, Option.getD_some, Option.some.injEq] at hr
      subst hr
      exact (hp m rfl).handle i he
    | insert m d x info ans k he =>
      simp only [returned, he, Option.getD_none, Option.some.injEq] at hr
      subst hr
      show (((c.allocate [d]).setHandle c.next x).heap c.next).handle ≠ 0
      rw [Cache.handle_setHandle]
      exact hh x rfl
  | read hs | batch hs => cases hs <;> cases hr
  | idle hs => cases hs

theorem PlanStep.effect_insert {d x info ans k} (hs : PlanStep parse c (.insert n d x info ans k) a pc' e)
    (he : c.entry n = none) : e = .insert n d x := by
  cases hs with
  | get hs =>
    cases hs with
    | existing _ _ _ _ _ _ i he' => exact nomatch he.symm.trans he'
    | insert => rfl
  | read hs | batch hs => cases hs

/-- **What `getSymbol` publishes is current, and what it returns has a handle.**  The entry it inserts is
    of the description and the handle that the PLC gave, both after the last swap and on this
    connection. -/
theorem getSymbol_current {heap : SymId → Symbol Layout Types} {types : Types}
    {s s' : State Key Layout Types} (h : Run (step parse) Resolvable (init heap types) s) {t : Nat}
    (hs : step parse s (t, .next) = some s') :
    (∀ n d x info ans k, s.loc t = .insert n d x info ans k → s.shared.entry n = none →
      info = s.shared.stamp ∧ ans = s.shared.stamp ∧
        ∃ id, s'.shared.entry n = some id ∧ (s'.shared.heap id).desc = d ∧
          (s'.shared.heap id).handle = x) ∧
      ∀ id, returned s.shared (s.loc t) = some id → (s'.shared.heap id).handle ≠ 0 := by
  have hi := resolveInv h
  obtain ⟨pc', e, hp, rfl⟩ := step_cases hs
  constructor
  · intro n d x info ans k ht he
    have hpend := hi.pending t n (by rw [ht]; rfl)
    rw [ht] at hp hpend
    refine ⟨hpend.current he info (by simp [Pc.stamps]), hpend.current he ans (by simp [Pc.stamps]), ?_⟩
    obtain rfl : e = .insert n d x := hp.effect_insert he
    exact ⟨_, heap_insert n d x⟩
  · intro id hr
    exact hp.handle_returned (hi.handle t) (hi.pending t) hr

/-! ## A resolve that nothing disturbs, and two that a load disturbs

The first table has the symbol `0`; the symbol `1` is resolved on demand. -/

namespace Example

def info : Desc Unit := ⟨(), 2, 0x4020, 40, []⟩

/-- `getSymbol` up to its insert. -/
def onDemand : List (Nat × Act Nat Unit Unit) :=
  [(0, .getSymbol 1), (0, .next), (0, .info info), (0, .handle 7)]

/-- A later table that has the symbol `1` too. -/
def both : List (Nat × Desc Unit) := [(0, ⟨(), 4, 0x4020, 16, []⟩), (1, ⟨(), 8, 0x4020, 80, []⟩)]

end Example

open Example

omit [DecidableEq Key]

/-- The PLC hands out handles other than 0, and the rest of the session leaves the cache alone. -/
def Quiet (_ : State Key Layout Types) (x : Nat × Act Key Layout Types) : Prop :=
  match x.2 with
  | .handle h => h ≠ 0
  | .swap _ _ _ | .expand _ _ _ | .zero _ | .reconnect => False
  | _ => True

instance (s : State Key Layout Types) (x : Nat × Act Key Layout Types) : Decidable (Quiet s x) := by
  obtain ⟨t, a⟩ := x
  unfold Quiet
  cases a <;> infer_instance

theorem Quiet.resolvable [DecidableEq Key] {s : State Key Layout Types} (h : Quiet s x) : Resolvable s x := by
  obtain ⟨t, a⟩ := x
  cases a with
  | handle => exact ⟨h, trivial⟩
  | swap | expand | zero | reconnect => exact h.elim
  | _ => exact ⟨trivial, trivial⟩

theorem run_loaded_resolvable : Run (step noParse) Resolvable (init blank ()) loaded := by
  refine .snoc (a := (0, .swap true none before)) .refl ⟨trivial, ?_⟩ rfl
  -- nobody is resolving anything yet
  exact fun u n hr => nomatch hr

/-- A table is loaded, and then a symbol that it lacks is resolved on demand. -/
theorem getSymbol_current_loaded : ∃ s s', Run (step noParse) Resolvable (init blank ()) s ∧
      step noParse s (0, .next) = some s' ∧
      s.loc 0 = .insert 1 info 7 ⟨1, 0⟩ ⟨1, 0⟩ .alone ∧ s.shared.entry 1 = none ∧
      s.shared.stamp = ⟨1, 0⟩ ∧
      ∃ id, returned s.shared (s.loc 0) = some id ∧ (s'.shared.heap id).handle ≠ 0 := by
  obtain ⟨s, hrun, hl, he⟩ := exists_run (step noParse) Quiet loaded
    (fun s => s.loc 0 = .insert 1 info 7 ⟨1, 0⟩ ⟨1, 0⟩ .alone ∧ s.shared.entry 1 = none)
    onDemand (by decide +kernel)
  have h := run_loaded_resolvable.trans (hrun.weaken fun _ _ h => h.resolvable)
  obtain ⟨s', hs⟩ : ∃ s', step noParse s (0, .next) = some s' := by
    simp [step, Conf.exec, act, hl, plan, getStep, he]
  obtain ⟨hins, hret⟩ := getSymbol_current h hs
  have hr : returned s.shared (s.loc 0) = some s.shared.next := by rw [hl]; simp [returned, he]
  exact ⟨s, s', h, hs, hl, he, (hins _ _ _ _ _ _ hl he).1.symm, s.shared.next, hr, hret _ hr⟩

/-- A load between the answers and the insert: `getSymbol` inserts what the PLC said before it, or
    returns the entry that the load has made, without a handle. -/
theorem getSymbol_outdated : (¬∀ s : State Nat Unit Unit,
      Run (step noParse) (fun _ x => NonZero x) (init blank ()) s →
        ∀ t n d x info ans k, s.loc t = .insert n d x info ans k → s.shared.entry n = none →
          info = s.shared.stamp ∧ ans = s.shared.stamp) ∧
      ¬∀ s s' : State Nat Unit Unit,
        Run (step noParse) (fun _ x => NonZero x) (init blank ()) s →
          ∀ t, step noParse s (t, .next) = some s' →
            ∀ id, returned s.shared (s.loc t) = some id → (s'.shared.heap id).handle ≠ 0 := by
  constructor
  · intro hall
    exact not_forall_run ((0, .swap true none before) :: onDemand ++
      [(1, .swap true none after)]) (by decide +kernel)
      fun s hrun => hall s hrun 0 1 info 7 ⟨1, 0⟩ ⟨1, 0⟩ .alone
  intro hall
  obtain ⟨s, hrun, hl, he, hz⟩ := exists_run (step noParse) (fun _ x => NonZero x) (init blank ())
    (fun s => s.loc 0 = .insert 1 info 7 ⟨1, 0⟩ ⟨1, 0⟩ .alone ∧
      s.shared.entry 1 = some 2 ∧ (s.shared.heap 2).handle = 0)
    ((0, .swap true none before) :: onDemand ++
      [(1, .swap true none both)]) (by decide +kernel)
  have hs : step noParse s (0, .next) = some ⟨s.shared, Function.update s.loc 0 .idle⟩ := by
    simp [step, Conf.exec, act, hl, plan, getStep, he, Caller.got, Effect.run]
  exact hall s _ hrun 0 hs 2 (by rw [hl]; simp [returned, he]) hz

end GoAds.Symbols
