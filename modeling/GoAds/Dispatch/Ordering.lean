import GoAds.Dispatch.Delivery
import GoAds.Wire.Shards

/-!
# `Dispatch.Ordering` — the order of deliveries on one handle

While a handle keeps its entry, the last stamp under the entry's lock covers every live sample that was
delivered, and a replayed one with an earlier stamp is dropped there.  A new entry begins with stamp 0 and a
lock of its own, so what an earlier entry has delivered is covered only if no sample from its time is still
on the way: that is the condition `Settled`.
-/

namespace GoAds.Dispatch.Delivery

open Interleaving List Function Conf Pc
open Function (update)
open Notification (Handle)
open Wire.Shards (ofHandle ofHandle_append samplesOf)

/-! ## What a step can be -/

/-- The live sample a goroutine has in its hands. -/
def Pc.live : Pc → Option Sample
  | .lookup s true _ | .missed s true _ | .ordered _ s true _ | .deliver _ s true _ | .park s => some s
  | .lookup _ false _ | .missed _ false _ | .ordered _ _ false _ | .deliver _ _ false _ | .idle
  | .replayBound _ | .replayTake _ => none

/-- The order it has got from the entry, with its sample. -/
def Pc.order : Pc → Option (Nat × Sample)
  | .ordered o s _ _ | .deliver o s _ _ => some (o, s)
  | .lookup _ _ _ | .missed _ _ _ | .park _ | .idle | .replayBound _ | .replayTake _ => none

/-- The order whose lock it holds, with its sample. -/
def Pc.lock : Pc → Option (Nat × Sample)
  | .deliver o s _ _ => some (o, s)
  | .ordered _ _ _ _ | .lookup _ _ _ | .missed _ _ _ | .park _ | .idle | .replayBound _
  | .replayTake _ => none

variable {pc : Pc}

theorem Pc.order_of_lock {x} (h : pc.lock = some x) : pc.order = some x := by
  cases pc with
  | deliver => exact h
  | ordered | lookup | missed | park | idle | replayBound | replayTake => cases h

theorem Pc.mem_of_order {o s} (h : pc.order = some (o, s)) : s ∈ pc.samples := by
  cases pc with
  | deliver o' s' buffer rest | ordered o' s' buffer rest =>
    cases h
    exact mem_cons_self
  | lookup | missed | park | idle | replayBound | replayTake => cases h

section

variable (rest : List Sample)

include rest

@[simp] theorem Pc.samples_done : (Pc.done rest).samples = rest := by
  cases rest <;> rfl

@[simp] theorem Pc.live_done : (Pc.done rest).live = none := by
  cases rest <;> rfl

@[simp] theorem Pc.order_done : (Pc.done rest).order = none := by
  cases rest <;> rfl

@[simp] theorem Pc.lock_done : (Pc.done rest).lock = none := by
  cases rest <;> rfl

end

/-- **The steps of a goroutine.** -/
inductive Move (t : Party) (sh : Shared) : Pc → Act → Pc → Shared → Prop
  | arrive (handle : Handle) (timestamp : Nat) (content : List UInt8) (ht : t = shardOf handle) :
      Move t sh .idle (.sample handle timestamp content)
        (.lookup ⟨handle, timestamp, content, sh.arrived.length⟩ true [])
        { sh with arrived := ⟨handle, timestamp, content, sh.arrived.length⟩ :: sh.arrived }
  | replay {pc : Pc} (a : Act) (handles : List Handle) (hpc : pc.lock = none) :
      Move t sh pc a (.replayBound handles) sh
  | look (a : Act) (bound : List Handle) {pc : Pc} (hpc : pc.lock = none) :
      Move t sh pc a (.replayTake bound) sh
  | finish {pc : Pc} (a : Act) (s : Sample) (rest : List Sample) (hpc : pc.samples = s :: rest)
      (hlock : pc.lock = none) : Move t sh pc a (.done rest) sh
  | missed (s : Sample) (buffer : Bool) (rest : List Sample) :
      Move t sh (.lookup s buffer rest) .next (.missed s buffer rest) sh
  | find (s : Sample) (buffer : Bool) (rest : List Sample) (o : Nat)
      (hbound : (sh.slots s.handle).bound = true) (horder : (sh.slots s.handle).order = some o) :
      Move t sh (.lookup s buffer rest) .next (.ordered o s buffer rest) sh
  | create (s : Sample) (buffer : Bool) (rest : List Sample)
      (hbound : (sh.slots s.handle).bound = true) (horder : (sh.slots s.handle).order = none) :
      Move t sh (.lookup s buffer rest) .next (.ordered sh.nextOrder s buffer rest)
        (sh.newOrder s.handle)
  | toPark (s : Sample) (rest : List Sample) : Move t sh (.missed s true rest) .next (.park s) sh
  | park (s : Sample) :
      Move t sh (.park s) .next (.replayBound [s.handle])
        { sh with earlySamples := update sh.earlySamples s.handle (some s) }
  | take (bound : List Handle) :
      Move t sh (.replayTake bound) .next (.done (takeEarly bound sh.earlySamples).1)
        { sh with earlySamples := (takeEarly bound sh.earlySamples).2 }
  | lock (o : Nat) (s : Sample) (buffer : Bool) (rest : List Sample)
      (hfree : (sh.orders o).locked = false)
      (hcheck : buffer = false → (sh.orders o).lastStamp ≤ s.timestamp) :
      Move t sh (.ordered o s buffer rest) .next (.deliver o s buffer rest) (sh.lock o s buffer)
  | send (o : Nat) (s : Sample) (buffer : Bool) (rest : List Sample) (ok : Bool) :
      Move t sh (.deliver o s buffer rest) (.send ok) (.done rest) (sh.send o s buffer ok)
  | bind (h : Handle) :
      Move t sh .idle (.bind h) .idle (sh.setSlot h ((sh.slots h).bind sh.arrived.length))
  | unbind (h : Handle) :
      Move t sh .idle (.unbind h) .idle (sh.setSlot h ((sh.slots h).unbind sh.arrived.length))
  | sweep :
      Move t sh .idle .sweep .idle
        { sh with slots := fun h => (sh.slots h).unbind sh.arrived.length }
  | discard : Move t sh .idle .discard .idle { sh with earlySamples := fun _ => none }

theorem advance_moves {t pc' sh sh' a}
    (h : advance t pc sh a = some (pc', sh')) : Move t sh pc a pc' sh' := by
  cases pc with
  | idle =>
    cases a with
    | sample handle timestamp content =>
      simp only [advance] at h
      split at h
      · next ht =>
        cases h
        exact .arrive handle timestamp content ht
      · cases h
    | replay handles =>
      cases h
      exact .replay _ handles rfl
    | bind handle =>
      cases h
      exact .bind handle
    | unbind handle =>
      cases h
      exact .unbind handle
    | sweep =>
      cases h
      exact .sweep
    | discard =>
      cases h
      exact .discard
    | next | drop | send => cases h
  | lookup s buffer rest =>
    cases a with
    | next =>
      simp only [advance] at h
      split at h
      · cases h
        exact .missed s buffer rest
      · next o hbound horder =>
        cases h
        exact .find s buffer rest o hbound horder
      next hbound horder =>
      cases h
      exact .create s buffer rest hbound horder
    | drop =>
      cases h
      exact .finish _ s rest rfl rfl
    | _ => cases h
  | missed s buffer rest =>
    cases a with
    | next =>
      cases buffer with
      | true =>
        cases h
        exact .toPark s rest
      | false => cases h
    | drop =>
      cases buffer <;> cases h <;> exact .finish _ s rest rfl rfl
    | _ => cases buffer <;> cases h
  | park s =>
    cases a with
    | next =>
      cases h
      exact .park s
    | drop =>
      cases h
      exact .finish _ s [] rfl rfl
    | _ => cases h
  | replayBound =>
    cases a <;> cases h
    exact .look _ _ rfl
  | replayTake bound =>
    cases a <;> cases h
    exact .take bound
  | ordered o s buffer rest =>
    cases a with
    | next =>
      simp only [advance] at h
      split at h
      · cases h
      next hfree =>
      split at h
      · cases h
        exact .finish _ s rest rfl rfl
      next hcheck =>
      cases h
      refine .lock o s buffer rest (by simpa using hfree) fun hb => ?_
      simpa [hb] using hcheck
    | _ => cases h
  | deliver o s buffer rest =>
    cases a with
    | send ok =>
      cases h
      exact .send o s buffer rest ok
    | _ => cases h

/-! ## The invariant -/

/-- A sample that was received, and not before the entry of its handle was made. -/
structure Current (sh : Shared) (s : Sample) : Prop where
  arrived : s ∈ sh.arrived
  since : (sh.slots s.handle).since ≤ s.arrival

/-- A live sample of an entry that has its order: what was delivered of it, or is about to be. -/
def Passed (sh : Shared) (s : Sample) : Prop :=
  (sh.slots s.handle).bound = false → s.arrival < (sh.slots s.handle).ended

/-- What is true of the shared state. -/
structure Glob (sh : Shared) : Prop where
  arrivals : ∀ a ∈ sh.arrived, a.arrival < sh.arrived.length
  stamps : ∀ a ∈ sh.arrived, ∀ b ∈ sh.arrived, a.handle = b.handle → a.arrival < b.arrival →
    a.timestamp ≤ b.timestamp
  bounds : ∀ h, (sh.slots h).since ≤ sh.arrived.length ∧ (sh.slots h).ended ≤ sh.arrived.length
  parked : ∀ h s, sh.earlySamples h = some s → s.handle = h ∧ Current sh s
  fresh : ∀ h o, (sh.slots h).order = some o → o < sh.nextOrder
  own : ∀ h h' o, (sh.slots h).order = some o → (sh.slots h').order = some o → h = h'
  covered : ∀ d ∈ sh.delivered, d.live = true → d.sample ∈ sh.arrived ∧ Passed sh d.sample ∧
    (d.sample.arrival < (sh.slots d.sample.handle).since ∨
      ∃ o, (sh.slots d.sample.handle).order = some o ∧
        d.sample.timestamp ≤ (sh.orders o).lastStamp)

/-- What is true of a goroutine. -/
structure Loc (sh : Shared) (t : Party) (pc : Pc) : Prop where
  moved : pc ≠ .idle → t ∈ sh.moved
  held : ∀ s ∈ pc.samples, Current sh s
  live : ∀ s, pc.live = some s → t = shardOf s.handle ∧
    ∀ a ∈ sh.arrived, a.handle = s.handle → a.timestamp ≤ s.timestamp
  order : ∀ o s, pc.order = some (o, s) → (sh.slots s.handle).order = some o ∧ Passed sh s
  lock : ∀ o s, pc.lock = some (o, s) →
    (sh.orders o).locked = true ∧ (sh.orders o).lastStamp = s.timestamp

structure Inv (c : State) : Prop where
  glob : Glob c.shared
  loc : ∀ t, Loc c.shared t (c.loc t)
  mutex : ∀ t u o s s', (c.loc t).lock = some (o, s) → (c.loc u).lock = some (o, s') → t = u
  log : InOrder c

theorem Inv.init : Inv init where
  glob :=
    { arrivals := fun a ha => absurd ha not_mem_nil
      stamps := fun a ha => absurd ha not_mem_nil
      bounds := fun _ => ⟨Nat.le_refl _, Nat.le_refl _⟩
      parked := fun _ _ h => by cases h
      fresh := fun _ _ h => by cases h
      own := fun _ _ _ h => by cases h
      covered := fun d hd => absurd hd not_mem_nil }
  loc t :=
    { moved := fun h => absurd rfl h
      held := fun s hs => absurd hs not_mem_nil
      live := fun _ h => by cases h
      order := fun _ _ h => by cases h
      lock := fun _ _ h => by cases h }
  mutex _ _ _ _ _ h := by cases h
  log := Pairwise.nil

/-! ## Steps of the shared state -/

section SharedSteps

variable {sh : Shared} {t u : Party} {s : Sample}

/-- A sample of the handle comes in. -/
abbrev Shared.arrive (sh : Shared) (handle : Handle) (timestamp : Nat) (content : List UInt8) : Shared :=
  { sh with arrived := ⟨handle, timestamp, content, sh.arrived.length⟩ :: sh.arrived }

/-- Of the state it matters what arrived, and the entries. -/
theorem Current.of_same {sh'} (h : Current sh s) (harrived : sh'.arrived = sh.arrived)
    (hslots : sh'.slots = sh.slots) : Current sh' s := ⟨harrived ▸ h.arrived, hslots ▸ h.since⟩

theorem Current.arrive (h : Current sh s) (handle : Handle) (timestamp : Nat) (content : List UInt8) :
    Current (sh.arrive handle timestamp content) s :=
  ⟨mem_cons_of_mem _ h.arrived, h.since⟩

theorem Glob.arrive (h : Glob sh) {handle timestamp content}
    (hmono : ∀ a ∈ sh.arrived, a.handle = handle → a.timestamp ≤ timestamp) :
    Glob (sh.arrive handle timestamp content) where
  arrivals a ha := by
    rcases mem_cons.1 ha with rfl | ha
    · exact Nat.lt_succ_self _
    · exact (h.arrivals a ha).trans (Nat.lt_succ_self _)
  stamps a ha b hb hab hlt := by
    rcases mem_cons.1 ha with rfl | ha <;> rcases mem_cons.1 hb with rfl | hb
    · exact Nat.le_refl _
    · exact absurd hlt (h.arrivals b hb).le.not_gt
    · exact hmono a ha hab
    · exact h.stamps a ha b hb hab hlt
  bounds k := ⟨(h.bounds k).1.trans (Nat.le_succ _), (h.bounds k).2.trans (Nat.le_succ _)⟩
  parked k x hx := ⟨(h.parked k x hx).1, (h.parked k x hx).2.arrive ..⟩
  fresh := h.fresh
  own := h.own
  covered d hd hl := ⟨mem_cons_of_mem _ (h.covered d hd hl).1, (h.covered d hd hl).2⟩

theorem Loc.arrive (h : Loc sh t pc) {handle timestamp content}
    (hother : ∀ s, pc.live = some s → s.handle ≠ handle) :
    Loc (sh.arrive handle timestamp content) t pc :=
  { h with
    held x hx := (h.held x hx).arrive ..
    live x hx := by
      refine ⟨(h.live x hx).1, forall_mem_cons.2 ⟨fun heq => ?_, (h.live x hx).2⟩⟩
      exact absurd heq.symm (hother x hx) }

theorem newOrder_slot (sh : Shared) (k h : Handle) : (sh.newOrder k).slots h = { sh.slots h with
      order := if h = k then some sh.nextOrder else (sh.slots h).order } := by
  by_cases hk : h = k
  · subst hk
    rw [if_pos rfl]
    exact update_self ..
  · rw [if_neg hk]
    exact update_of_ne hk ..

variable {buffer : Bool} {k : Handle} {rest : List Sample} {o : Nat}

theorem newOrder_orders (h : o < sh.nextOrder) : (sh.newOrder k).orders o = sh.orders o :=
  update_of_ne h.ne ..

theorem Current.newOrder (h : Current sh s) : Current (sh.newOrder k) s :=
  ⟨h.arrived, by rw [newOrder_slot]; exact h.since⟩

theorem Passed.newOrder (h : Passed sh s) : Passed (sh.newOrder k) s := by
  unfold Passed
  rw [newOrder_slot]
  exact h

theorem order_newOrder {h} (hk : (sh.slots k).order = none)
    (ho : (sh.slots h).order = some o) : ((sh.newOrder k).slots h).order = some o := by
  rw [newOrder_slot]
  rw [if_neg]
  · exact ho
  rintro rfl
  rw [hk] at ho
  cases ho

theorem Glob.newOrder (h : Glob sh) (hk : (sh.slots k).order = none) : Glob (sh.newOrder k) where
  arrivals := h.arrivals
  stamps := h.stamps
  bounds x := by
    rw [newOrder_slot]
    exact h.bounds x
  parked x y hy := ⟨(h.parked x y hy).1, (h.parked x y hy).2.newOrder⟩
  fresh x o ho := by
    rw [newOrder_slot] at ho
    split at ho
    · cases ho
      exact Nat.lt_succ_self _
    · exact (h.fresh x o ho).trans (Nat.lt_succ_self _)
  own x y o hx hy := by
    rw [newOrder_slot] at hx hy
    -- the new order is nobody else's
    split at hx <;> split at hy
    · next hxk hyk => rw [hxk, hyk]
    · cases hx
      exact absurd (h.fresh y _ hy) (Nat.lt_irrefl _)
    · cases hy
      exact absurd (h.fresh x _ hx) (Nat.lt_irrefl _)
    · exact h.own x y o hx hy
  covered d hd hl := by
    obtain ⟨harr, hpass, hcov⟩ := h.covered d hd hl
    refine ⟨harr, hpass.newOrder, ?_⟩
    rcases hcov with hold | ⟨o, ho, hle⟩
    · left
      rw [newOrder_slot]
      exact hold
    · exact .inr ⟨o, order_newOrder hk ho, by rw [newOrder_orders (h.fresh _ o ho)]; exact hle⟩

theorem Loc.newOrder (h : Loc sh t pc) (hg : Glob sh) (hk : (sh.slots k).order = none) :
    Loc (sh.newOrder k) t pc where
  moved := h.moved
  held x hx := (h.held x hx).newOrder
  live := h.live
  order o x hx := ⟨order_newOrder hk (h.order o x hx).1, (h.order o x hx).2.newOrder⟩
  lock o x hx := by
    have ho := (h.order o x (order_of_lock hx)).1
    rw [newOrder_orders (hg.fresh _ o ho)]
    exact h.lock o x hx

/-- An order changes, and no live sample is uncovered by it. -/
theorem Glob.setOrder (h : Glob sh) {order}
    (hle : ∀ d ∈ sh.delivered, d.live = true → (sh.slots d.sample.handle).order = some o →
      d.sample.timestamp ≤ (sh.orders o).lastStamp → d.sample.timestamp ≤ order.lastStamp) :
    Glob (sh.setOrder o order) :=
  { h with
    parked x y hy := (h.parked x y hy).imp_right (·.of_same rfl rfl)
    covered d hd hl := by
      obtain ⟨harr, hpass, hcov⟩ := h.covered d hd hl
      refine ⟨harr, hpass, hcov.imp_right ?_⟩
      rintro ⟨o', ho', hcov⟩
      refine ⟨o', ho', ?_⟩
      show _ ≤ (update sh.orders o order o').lastStamp
      by_cases ho : o' = o
      · subst ho
        rw [update_self]
        exact hle d hd hl ho' hcov
      · rw [update_of_ne ho]
        exact hcov }

/-- The order of another goroutine's lock is another one. -/
theorem Loc.setOrder (h : Loc sh t pc) {order}
    (hother : ∀ s, pc.lock ≠ some (o, s)) : Loc (sh.setOrder o order) t pc :=
  { h with
    held x hx := (h.held x hx).of_same rfl rfl
    lock o' x hx := by
      have hne : o' ≠ o := by
        rintro rfl
        exact hother x hx
      show (update sh.orders o order o').locked = true ∧
        (update sh.orders o order o').lastStamp = x.timestamp
      rw [update_of_ne hne]
      exact h.lock o' x hx }

/-- Entries may go, if the samples of their time are counted. -/
structure Slot.Goes (arrivals : Nat) (slot slot' : Slot) : Prop where
  order : slot'.order = slot.order
  since : slot'.since = slot.since
  ended : slot' = slot ∨ slot'.ended = arrivals

theorem Slot.goes_unbind (slot : Slot) (arrivals : Nat) : Slot.Goes arrivals slot (slot.unbind arrivals) := by
  unfold Slot.unbind
  split
  · exact ⟨rfl, rfl, .inr rfl⟩
  · exact ⟨rfl, rfl, .inl rfl⟩

theorem Slot.goes_refl (slot : Slot) (arrivals : Nat) : Slot.Goes arrivals slot slot :=
  ⟨rfl, rfl, .inl rfl⟩

variable {slots : Handle → Slot}

theorem Current.go (h : Current sh s) (hs : ∀ k, (slots k).since = (sh.slots k).since) :
    Current { sh with slots := slots } s := ⟨h.arrived, (hs s.handle).trans_le h.since⟩

theorem Passed.go (h : Passed sh s) (harr : s.arrival < sh.arrived.length)
    (hs : (sh.slots s.handle).Goes sh.arrived.length (slots s.handle)) :
    Passed { sh with slots := slots } s := by
  intro hbound
  rcases hs.ended with heq | hended
  · have hb : (slots s.handle).bound = false := hbound
    rw [heq] at hb
    show s.arrival < (slots s.handle).ended
    rw [heq]
    exact h hb
  · exact harr.trans_eq hended.symm

theorem Glob.go (h : Glob sh) (hs : ∀ k, (sh.slots k).Goes sh.arrived.length (slots k)) :
    Glob { sh with slots := slots } where
  arrivals := h.arrivals
  stamps := h.stamps
  bounds k := by
    refine ⟨(hs k).since.trans_le (h.bounds k).1, ?_⟩
    rcases (hs k).ended with heq | hended
    · show (slots k).ended ≤ _
      rw [heq]
      exact (h.bounds k).2
    · exact hended.le
  parked k x hx := ⟨(h.parked k x hx).1, (h.parked k x hx).2.go fun k => (hs k).since⟩
  fresh k o ho := h.fresh k o ((hs k).order.symm.trans ho)
  own k k' o hk hk' := h.own k k' o ((hs k).order.symm.trans hk) ((hs k').order.symm.trans hk')
  covered d hd hl := by
    obtain ⟨harr, hpass, hcov⟩ := h.covered d hd hl
    refine ⟨harr, hpass.go (h.arrivals _ harr) (hs _), ?_⟩
    rcases hcov with hold | ⟨o, ho, hle⟩
    · exact .inl (hold.trans_eq (hs _).since.symm)
    · exact .inr ⟨o, (hs _).order.trans ho, hle⟩

theorem Loc.go (h : Loc sh t pc) (hg : Glob sh) (hs : ∀ k, (sh.slots k).Goes sh.arrived.length (slots k)) :
    Loc { sh with slots := slots } t pc :=
  { h with
    held x hx := (h.held x hx).go fun k => (hs k).since
    order o x hx := by
      have harr := (h.held x (mem_of_order hx)).arrived
      exact ⟨(hs _).order.trans (h.order o x hx).1, (h.order o x hx).2.go (hg.arrivals x harr) (hs _)⟩ }

/-! ### A new entry -/

theorem bind_slot_self (sh : Shared) (k : Handle) :
    (sh.setSlot k ((sh.slots k).bind sh.arrived.length)).slots k =
      (sh.slots k).bind sh.arrived.length := update_self ..

theorem bind_slot_of_ne (sh : Shared) {h} (hne : h ≠ k) (slot : Slot) :
    (sh.setSlot k slot).slots h = sh.slots h := update_of_ne hne ..

/-- Samples of the handle belong to the new entry; this is what `Settled` is for. -/
theorem Current.bind (h : Current sh s)
    (hstart : s.handle = k → (sh.slots k).start sh.arrived.length ≤ s.arrival) :
    Current (sh.setSlot k ((sh.slots k).bind sh.arrived.length)) s := by
  refine ⟨h.arrived, ?_⟩
  by_cases hk : s.handle = k
  · rw [hk, bind_slot_self]
    exact hstart hk
  · rw [bind_slot_of_ne sh hk]
    exact h.since

/-- What has passed under the old entry came before the new one. -/
theorem Passed.lt_start (h : Passed sh s) (hk : s.handle = k)
    (harr : s.arrival < sh.arrived.length) : s.arrival < (sh.slots k).start sh.arrived.length := by
  subst hk
  unfold Slot.start
  split
  · exact harr
  · next hb => exact h (by simpa using hb)

theorem Glob.bind (h : Glob sh)
    (hearly : ∀ x ∈ sh.earlySamples k, (sh.slots k).start sh.arrived.length ≤ x.arrival) :
    Glob (sh.setSlot k ((sh.slots k).bind sh.arrived.length)) where
  arrivals := h.arrivals
  stamps := h.stamps
  bounds x := by
    by_cases hx : x = k
    · subst hx
      rw [bind_slot_self]
      refine ⟨?_, (h.bounds x).2⟩
      show (sh.slots x).start _ ≤ _
      unfold Slot.start
      split
      · exact Nat.le_refl _
      · exact (h.bounds x).2
    · rw [bind_slot_of_ne sh hx]
      exact h.bounds x
  parked x y hy := by
    obtain ⟨hyx, hcur⟩ := h.parked x y hy
    refine ⟨hyx, hcur.bind fun hk => hearly y ?_⟩
    rw [← hk, hyx]
    exact hy
  fresh x o ho := by
    by_cases hx : x = k
    · subst hx
      rw [bind_slot_self] at ho
      cases ho
    · rw [bind_slot_of_ne sh hx] at ho
      exact h.fresh x o ho
  own x y o hx hy := by
    have hxk : x ≠ k := by
      rintro rfl
      rw [bind_slot_self] at hx
      cases hx
    have hyk : y ≠ k := by
      rintro rfl
      rw [bind_slot_self] at hy
      cases hy
    rw [bind_slot_of_ne sh hxk] at hx
    rw [bind_slot_of_ne sh hyk] at hy
    exact h.own x y o hx hy
  covered d hd hl := by
    obtain ⟨harr, hpass, hcov⟩ := h.covered d hd hl
    by_cases hk : d.sample.handle = k
    · refine ⟨harr, fun hb => ?_, .inl ?_⟩
      · rw [hk, bind_slot_self] at hb
        cases hb
      · rw [hk, bind_slot_self]
        exact hpass.lt_start hk (h.arrivals _ harr)
    refine ⟨harr, ?_, ?_⟩
    · unfold Passed
      rw [bind_slot_of_ne sh hk]
      exact hpass
    · rw [bind_slot_of_ne sh hk]
      exact hcov

theorem Loc.bind (h : Loc sh t pc) (hg : Glob sh)
    (hstart : ∀ x ∈ pc.samples, x.handle = k → (sh.slots k).start sh.arrived.length ≤ x.arrival) :
    Loc (sh.setSlot k ((sh.slots k).bind sh.arrived.length)) t pc where
  moved := h.moved
  held x hx := (h.held x hx).bind (hstart x hx)
  live := h.live
  order o x hx := by
    obtain ⟨ho, hpass⟩ := h.order o x hx
    have hmem := mem_of_order hx
    have hk : x.handle ≠ k := fun hk => by
      have hlt := hpass.lt_start hk (hg.arrivals x (h.held x hmem).arrived)
      exact absurd (hstart x hmem hk) (Nat.not_le.2 hlt)
    unfold Passed
    rw [bind_slot_of_ne sh hk]
    exact ⟨ho, hpass⟩
  lock := h.lock

/-! ### Parked samples -/

theorem takeEarly_spec (hs : List Handle) (early : Handle → Option Sample) :
    (∀ x ∈ (takeEarly hs early).1, ∃ h, early h = some x) ∧
    ∀ h x, (takeEarly hs early).2 h = some x → early h = some x := by
  induction hs generalizing early with
  | nil => exact ⟨fun x hx => absurd hx not_mem_nil, fun _ _ h => h⟩
  | cons k hs ih =>
    cases hk : early k with
    | none =>
      simp only [takeEarly, hk]
      exact ih early
    | some =>
      simp only [takeEarly, hk]
      obtain ⟨htaken, hleft⟩ := ih (update early k none)
      have hold : ∀ h x, update early k none h = some x → early h = some x := by
        intro h x hx
        rcases update_eq_some.1 hx with ⟨-, ⟨⟩⟩ | ⟨-, hx⟩
        exact hx
      refine ⟨fun x hx => ?_, fun h x hx => hold h x (hleft h x hx)⟩
      rcases mem_cons.1 hx with rfl | hx
      · exact ⟨k, hk⟩
      · obtain ⟨h, hh⟩ := htaken x hx
        exact ⟨h, hold h x hh⟩

theorem Glob.early (h : Glob sh) {early : Handle → Option Sample}
    (hearly : ∀ k x, early k = some x → x.handle = k ∧ Current sh x) :
    Glob { sh with earlySamples := early } :=
  { h with parked k x hx := (hearly k x hx).imp_right (·.of_same rfl rfl) }

theorem Loc.early (h : Loc sh t pc) (early : Handle → Option Sample) :
    Loc { sh with earlySamples := early } t pc :=
  { h with held x hx := (h.held x hx).of_same rfl rfl }

/-! ### Goroutines -/

theorem Glob.moves (h : Glob sh) (t : Party) : Glob { sh with moved := t :: sh.moved } :=
  { h with parked k x hx := (h.parked k x hx).imp_right (·.of_same rfl rfl) }

theorem Loc.moves (h : Loc sh u pc) (t : Party) : Loc { sh with moved := t :: sh.moved } u pc :=
  { h with
    moved hne := mem_cons_of_mem t (h.moved hne)
    held x hx := (h.held x hx).of_same rfl rfl }

theorem Loc.calm {pc'} (h : Loc sh t pc) (hmoved : t ∈ sh.moved)
    (hsamples : pc'.samples ⊆ pc.samples) (hlive : ∀ s, pc'.live = some s → pc.live = some s)
    (horder : pc'.order = none) : Loc sh t pc' where
  moved _ := hmoved
  held x hx := h.held x (hsamples hx)
  live x hx := h.live x (hlive x hx)
  order o x hx := by
    rw [horder] at hx
    cases hx
  lock o x hx := by
    rw [order_of_lock hx] at horder
    cases horder

theorem Loc.empty (hmoved : t ∈ sh.moved) (hsamples : pc.samples = []) (hlive : pc.live = none)
    (horder : pc.order = none) : Loc sh t pc where
  moved _ := hmoved
  held x hx := by
    rw [hsamples] at hx
    exact absurd hx not_mem_nil
  live x hx := by
    rw [hlive] at hx
    cases hx
  order o x hx := by
    rw [horder] at hx
    cases hx
  lock o x hx := by
    rw [order_of_lock hx] at horder
    cases horder

theorem Loc.gotOrder (h : Loc sh t (.lookup s buffer rest)) (hmoved : t ∈ sh.moved)
    (horder : (sh.slots s.handle).order = some o) (hbound : (sh.slots s.handle).bound = true) :
    Loc sh t (.ordered o s buffer rest) where
  moved _ := hmoved
  held := h.held
  live x hx := by
    apply h.live
    cases buffer with
    | true => exact hx
    | false => cases hx
  order o' x hx := by
    cases hx
    refine ⟨horder, fun hb => ?_⟩
    rw [hbound] at hb
    cases hb
  lock o' x hx := by cases hx

theorem lock_order (hcheck : buffer = false → (sh.orders o).lastStamp ≤ s.timestamp) :
    (sh.lock o s buffer).orders o = ⟨s.timestamp, true⟩ := by
  have hself : (sh.lock o s buffer).orders o =
      ⟨if buffer || decide (s.timestamp > (sh.orders o).lastStamp) then s.timestamp
        else (sh.orders o).lastStamp, true⟩ := update_self ..
  rw [hself]
  cases buffer with
  | true => rfl
  | false =>
    have hle := hcheck rfl
    simp only [Bool.false_or, decide_eq_true_eq]
    split
    · rfl
    · next hnot =>
      rw [Nat.le_antisymm hle (Nat.not_lt.1 hnot)]

theorem Glob.lock (h : Glob sh) (hl : Loc sh t (.ordered o s buffer rest))
    (hcheck : buffer = false → (sh.orders o).lastStamp ≤ s.timestamp) : Glob (sh.lock o s buffer) := by
  have horder := lock_order hcheck
  apply h.setOrder
  intro d hd hlive hdo hle
  have hself : update sh.orders o _ o = (⟨s.timestamp, true⟩ : Order) := horder
  rw [update_self] at hself
  rw [hself]
  cases buffer with
  | true =>
    -- the newest live sample of its handle
    obtain ⟨hso, -⟩ := hl.order o s rfl
    exact (hl.live s rfl).2 d.sample (h.covered d hd hlive).1 (h.own _ _ o hdo hso)
  | false => exact hle.trans (hcheck rfl)

theorem Loc.lock_self (hl : Loc sh t (.ordered o s buffer rest))
    (hcheck : buffer = false → (sh.orders o).lastStamp ≤ s.timestamp) :
    Loc (sh.lock o s buffer) t (.deliver o s buffer rest) where
  moved _ := hl.moved (by simp)
  held x hx := (hl.held x hx).of_same rfl rfl
  live x hx := by
    cases buffer with
    | true => exact hl.live x hx
    | false => cases hx
  order := hl.order
  lock o' x hx := by
    cases hx
    rw [lock_order hcheck]
    exact ⟨rfl, rfl⟩

theorem Glob.delivered (h : Glob sh) {log}
    (hlog : ∀ d ∈ log, d ∈ sh.delivered ∨ ∃ o, (sh.slots d.sample.handle).order = some o ∧
      d.sample ∈ sh.arrived ∧ Passed sh d.sample ∧
      d.sample.timestamp ≤ (sh.orders o).lastStamp) : Glob { sh with delivered := log } :=
  { h with
    parked k x hx := (h.parked k x hx).imp_right (·.of_same rfl rfl)
    covered d hd hl := by
      rcases hlog d hd with hold | ⟨o, ho, harr, hpass, hle⟩
      · exact h.covered d hold hl
      · exact ⟨harr, hpass, .inr ⟨o, ho, hle⟩⟩ }

theorem Glob.send (h : Glob sh) {ok}
    (hl : Loc sh t (.deliver o s buffer rest)) : Glob (sh.send o s buffer ok) := by
  obtain ⟨hso, hpass⟩ := hl.order o s rfl
  have hlast := (hl.lock o s rfl).2
  have harr := (hl.held s mem_cons_self).arrived
  have hunlock : Glob (sh.setOrder o { sh.orders o with locked := false }) :=
    h.setOrder fun d _ _ _ hle => hle
  apply hunlock.delivered
  intro d hd
  cases ok with
  | false => exact .inl hd
  | true =>
    rcases mem_cons.1 hd with rfl | hd
    · refine .inr ⟨o, hso, harr, hpass, ?_⟩
      show s.timestamp ≤ (update sh.orders o _ o).lastStamp
      rw [update_self]
      exact hlast.ge
    · exact .inl hd

theorem Loc.send (h : Loc sh u pc) {ok} (hother : ∀ s, pc.lock ≠ some (o, s)) :
    Loc (sh.send o s buffer ok) u pc := by
  have hset : Loc (sh.setOrder o { sh.orders o with locked := false }) u pc := h.setOrder hother
  exact { hset with held x hx := (hset.held x hx).of_same rfl rfl }

/-- **The delivery itself**: what the lock's last stamp covers is not later than a replayed sample. -/
theorem inOrder_send (hg : Glob sh)
    (hl : Loc sh t (.deliver o s false rest)) {d} (hd : d ∈ sh.delivered) (hlive : d.live = true)
    (hh : s.handle = d.sample.handle) : d.sample.timestamp ≤ s.timestamp := by
  obtain ⟨hso, -⟩ := hl.order o s rfl
  have hcur := hl.held s mem_cons_self
  obtain ⟨harr, -, hcov⟩ := hg.covered d hd hlive
  rw [← hh] at hcov
  rcases hcov with hold | ⟨o', ho', hle⟩
  · exact hg.stamps _ harr _ hcur.arrived hh.symm (hold.trans_le hcur.since)
  rw [hso] at ho'
  cases ho'
  exact hle.trans (hl.lock o s rfl).2.le

end SharedSteps

/-! ## Steps of the system -/

section Steps

variable {c : State} {sh' : Shared} {t : Party} {pc' : Pc}

section

variable (h : Inv c) (hg : Glob sh') (ht : Loc sh' t pc') (hu : ∀ u, u ≠ t → Loc sh' u (c.loc u))

include h hg ht hu

theorem Inv.of_parts
    (hlock : ∀ o s, pc'.lock = some (o, s) → ∀ u, u ≠ t → ∀ s', (c.loc u).lock ≠ some (o, s'))
    (hlog : InOrder ⟨sh', update c.loc t pc'⟩) : Inv ⟨sh', update c.loc t pc'⟩ := by
  refine ⟨hg, forall_loc ht hu, fun u v o s s' hu' hv' => ?_, hlog⟩
  by_cases hut : u = t <;> by_cases hvt : v = t
  · rw [hut, hvt]
  · subst hut
    rw [loc_self] at hu'
    rw [loc_of_ne hvt] at hv'
    exact absurd hv' (hlock o s hu' v hvt s')
  · subst hvt
    rw [loc_self] at hv'
    rw [loc_of_ne hut] at hu'
    exact absurd hu' (hlock o s' hv' u hut s)
  rw [loc_of_ne hut] at hu'
  rw [loc_of_ne hvt] at hv'
  exact h.mutex u v o s s' hu' hv'

theorem Inv.of_calm (hlock : pc'.lock = none)
    (hlog : sh'.delivered = c.shared.delivered) : Inv ⟨sh', update c.loc t pc'⟩ := by
  refine h.of_parts hg ht hu (fun o s ho => ?_) ?_
  · rw [hlock] at ho
    cases ho
  unfold InOrder
  rw [hlog]
  exact h.log

end

theorem Inv.step {c' x} (h : Inv c) (hmono : Monotone c x)
    (hsettled : Settled c x) (hs : step c x = some c') : Inv c' := by
  obtain ⟨t, a⟩ := x
  obtain ⟨pc', sh', hact, rfl⟩ := exec_eq_some.1 hs
  -- the step is taken in a state in which `t` is noted as moving
  have hg := h.glob.moves t
  have hloc := fun u => (h.loc u).moves t
  have hmoved : t ∈ t :: c.shared.moved := mem_cons_self
  have hself := hloc t
  generalize hpc : c.loc t = pc at hact hself
  cases advance_moves hact with
  | arrive handle timestamp content ht =>
    refine h.of_calm (hg.arrive hmono) ⟨fun _ => hmoved, fun s hs => ?_, fun s hs => ?_,
      fun o s ho => ?_, fun o s ho => ?_⟩ (fun u hu => ?_) rfl rfl
    · rw [mem_singleton.1 hs]
      exact ⟨mem_cons_self, (hg.bounds handle).1⟩
    · cases hs
      exact ⟨ht, forall_mem_cons.2 ⟨fun _ => Nat.le_refl _, hmono⟩⟩
    · cases ho
    · cases ho
    -- a live sample of this handle would be on this shard, which is idle
    refine (hloc u).arrive fun s hs heq => hu ?_
    rw [((hloc u).live s hs).1, heq, ht]
  | replay _ =>
    exact h.of_calm hg (.empty hmoved rfl rfl rfl) (fun u _ => hloc u) rfl rfl
  | look _ => exact h.of_calm hg (.empty hmoved rfl rfl rfl) (fun u _ => hloc u) rfl rfl
  | finish _ s rest hsamples =>
    refine h.of_calm hg (hself.calm hmoved ?_ (fun s hs => by simp at hs) (order_done rest))
      (fun u _ => hloc u) (lock_done rest) rfl
    rw [samples_done, hsamples]
    exact subset_cons_self ..
  | missed s buffer =>
    refine h.of_calm hg (hself.calm hmoved (Subset.refl _) (fun x hx => ?_) rfl)
      (fun u _ => hloc u) rfl rfl
    cases buffer with
    | true => exact hx
    | false => cases hx
  | find s buffer rest o hbound horder =>
    exact h.of_calm hg (hself.gotOrder hmoved horder hbound) (fun u _ => hloc u) rfl rfl
  | create s buffer rest hbound horder =>
    have hnew := hself.newOrder hg horder
    refine h.of_calm (hg.newOrder horder) (hnew.gotOrder hmoved ?_ ?_)
      (fun u _ => (hloc u).newOrder hg horder) rfl rfl
    · rw [newOrder_slot]
      exact if_pos rfl
    · rw [newOrder_slot]
      exact hbound
  | toPark =>
    refine h.of_calm hg (hself.calm hmoved (fun x hx => ?_) (fun x hx => hx) rfl) (fun u _ => hloc u) rfl rfl
    rw [mem_singleton.1 hx]
    exact mem_cons_self
  | park s =>
    have hcur := hself.held s mem_cons_self
    refine h.of_calm (hg.early fun k x hx => ?_)
      (.empty hmoved rfl rfl rfl) (fun u _ => (hloc u).early _) rfl rfl
    rcases update_eq_some.1 hx with ⟨rfl, heq⟩ | ⟨-, hx⟩
    · cases heq
      exact ⟨rfl, hcur⟩
    · exact hg.parked k x hx
  | take bound =>
    obtain ⟨htaken, hleft⟩ := takeEarly_spec bound c.shared.earlySamples
    refine h.of_calm (hg.early fun k x hx => hg.parked k x (hleft k x hx)) ?_
      (fun u _ => (hloc u).early _) (lock_done _) rfl
    refine ⟨fun _ => hmoved, fun x hx => ?_, fun x hx => ?_, fun o x hx => ?_, fun o x hx => ?_⟩
    · rw [samples_done] at hx
      obtain ⟨k, hk⟩ := htaken x hx
      exact (hg.parked k x hk).2.of_same rfl rfl
    · rw [live_done] at hx
      cases hx
    · rw [order_done] at hx
      cases hx
    · rw [lock_done] at hx
      cases hx
  | lock o s buffer rest hfree hcheck =>
    have hother : ∀ u s', (c.loc u).lock ≠ some (o, s') := by
      intro u s' hu
      have := ((hloc u).lock o s' hu).1
      rw [hfree] at this
      cases this
    refine h.of_parts (hg.lock hself hcheck) (hself.lock_self hcheck)
      (fun u _ => (hloc u).setOrder (hother u)) (fun o' x hx u _ => ?_) h.log
    cases hx
    exact hother u
  | send o s buffer rest ok =>
    have hother : ∀ u, u ≠ t → ∀ s', (c.loc u).lock ≠ some (o, s') := fun u hu s' hu' =>
      hu (h.mutex u t o s' s hu' (by rw [hpc]; rfl))
    have hdone : ∀ s', (Pc.done rest).lock ≠ some (o, s') := by simp
    have hrest : Loc { c.shared with moved := t :: c.shared.moved } t (.done rest) := by
      refine hself.calm hmoved ?_ ?_ (order_done rest)
      · rw [samples_done]
        exact subset_cons_self ..
      · intro x hx
        simp at hx
    refine h.of_parts (hg.send hself) (hrest.send hdone) (fun u hu => (hloc u).send (hother u hu))
      (fun o' x hx => by rw [lock_done] at hx; cases hx) ?_
    cases ok with
    | false => exact h.log
    | true =>
      refine pairwise_cons.2 ⟨fun d hd hb hlive hh => ?_, h.log⟩
      cases hb
      exact inOrder_send hg hself hd hlive hh
  | bind =>
    obtain ⟨hheld, hearly⟩ := hsettled
    refine h.of_calm (hg.bind hearly) (hself.bind hg fun x hx => absurd hx not_mem_nil)
      (fun u hu => (hloc u).bind hg fun x hx hk => ?_) rfl rfl
    -- a goroutine with a sample has moved
    have hne : c.loc u ≠ .idle := fun heq => by
      rw [heq] at hx
      exact absurd hx not_mem_nil
    exact hheld u ((h.loc u).moved hne) x hx hk
  | unbind k =>
    have hgoes : ∀ j, (c.shared.slots j).Goes c.shared.arrived.length
        (update c.shared.slots k ((c.shared.slots k).unbind c.shared.arrived.length) j) :=
      forall_loc (P := fun j => (c.shared.slots j).Goes _) (Slot.goes_unbind ..) fun _ _ => Slot.goes_refl ..
    exact h.of_calm (hg.go hgoes) (hself.go hg hgoes) (fun u _ => (hloc u).go hg hgoes) rfl rfl
  | sweep =>
    have hgoes : ∀ j, (c.shared.slots j).Goes c.shared.arrived.length
        ((c.shared.slots j).unbind c.shared.arrived.length) := fun j => Slot.goes_unbind ..
    exact h.of_calm (hg.go hgoes) (hself.go hg hgoes) (fun u _ => (hloc u).go hg hgoes) rfl rfl
  | discard =>
    exact h.of_calm (hg.early fun k x hx => by cases hx) (hself.early _) (fun u _ => (hloc u).early _)
      rfl rfl

end Steps

end GoAds.Dispatch.Delivery
