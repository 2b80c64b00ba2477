import GoAds.Session.Steps

/-!
# `Session.Drops` — who is responsible for a transport drop

Once a worker has closed the channel `dropped` of the current client, somebody has to bring the
transport up again.  While `tx.disconnected` is not set, that is a goroutine that is about to replace
the client, or a worker that is about to set the flag (`Pc.renews`).  When it is set, it is whoever set
it, or the goroutine whose ownership suppressed the one that did (`Pc.active`).

Two steps can end that responsibility: the clearing of the flag after a dial, and the end of a
handshake region, during which `ondrop` is nil.  Neither looks at `dropped`, so both have to find the
client alive.  A Connect that returns an error ends it by design: the caller has to call again.
-/

namespace GoAds.Session

open Interleaving Function List Effect Conf Pc
open Function (update)

/-! ## What a goroutine is doing -/

/-- The region is one of Connect's. -/
def Site.ofConnect : Site → Bool
  | .ensureRouteOnConnect | .connectActivation => true
  | .reconnectActivation => false

def Pc.inConnect : Pc → Bool
  | .connect .enter => false
  | .connect _ => true
  | .handshake site _ => site.ofConnect
  | _ => false

def Pc.inReconnect : Pc → Bool
  | .reconnect _ => true
  | .handshake site _ => !site.ofConnect
  | _ => false

/-- A drop is being reported to the session. -/
def Pc.reports : Pc → Bool
  | .onDrop _ | .trigger _ _ => true
  | _ => false

/-- Between Connect's two stores to `connecting`. -/
def Pc.connects : Pc → Bool
  | .connect .enter | .connect .mark | .connect .adopt => false
  | pc => pc.inConnect

/-- Between the two stores to `reconnectOwner`. -/
def Pc.owns : Pc → Bool
  | .reconnect .isClosed | .reconnect .own | .reconnect .adopt => false
  | pc => pc.inReconnect

def Pc.inHandshake : Pc → Bool
  | .handshake _ _ => true
  | _ => false

/-- The goroutine will replace the current client, set `tx.disconnected`, or return an error from
    Connect. -/
def Pc.renews (sh : Shared) : Pc → Bool
  | .onDrop k => k = sh.client
  | .trigger _ .isClosed | .trigger _ .cas | .connect .mark | .connect .dial | .connect .clear
  | .connect .tear | .connect (.wait _) | .connect .redial | .connect .reclear
  | .connect (.fail _) | .connect (.failWait _ _) | .connect .disconnect
  | .connect .rollback | .connect .rollbackTo | .connect (.unmark false) | .handshake _ _
  | .reconnect .mark | .reconnect .tear | .reconnect (.wait _)
  | .reconnect .loop | .reconnect .dial | .reconnect .clear
  | .reconnect .reset | .reconnect .resetTear | .reconnect (.resetWait _) | .reconnect .sleep =>
      true
  | _ => false

/-- The goroutine will deal with a `tx.disconnected` that is set. -/
def Pc.active (pc : Pc) : Bool :=
  match pc with
  | .trigger _ _ => true
  | pc => pc.inConnect || pc.inReconnect

/-- A connection has come up, and the session has not been told `Connected` yet. -/
def Pc.established : Pc → Bool
  | .connect .localMode | .connect .route | .connect .version | .connect .enterConnected
  | .handshake _ _ | .reconnect .localMode | .reconnect .route | .reconnect .reload
  | .reconnect .resubscribe | .reconnect .enterConnected => true
  | _ => false

/-! ## The condition on a step -/

/-- A Connect or a Reconnect that clears `tx.disconnected` finds the client it has published alive. -/
def ClearsLive (sh : Shared) : Pc → Prop
  | .connect .clear | .reconnect .clear => sh.client ∉ sh.dropped
  | _ => True

/-- A handshake region whose caller goes on with the connection ends while the client is alive, or its
    drop is on record. -/
def RearmsLive (sh : Shared) : Pc → Act → Prop
  | .handshake site (.rearm true), .answer known =>
    site.exit true known = .connect .tear ∨ sh.client ∉ sh.dropped ∨ sh.disconnected = true
  | _, _ => True

/-- A Connect returns an error while no Reconnect is at work or has brought the session up. -/
def FailsAlone (sh : Shared) : Pc → Prop
  | .connect (.unmark false) => sh.reconnectOwner = false ∧ sh.state ≠ .connected
  | _ => True

/-- Connect is not safe for concurrent use: it begins while no other is in progress. -/
def SingleConnect (c : State) : Pc → Prop
  | .connect .enter => c.shared.state.permits .connecting = true → ∀ u, (c.loc u).inConnect = false
  | _ => True

def Attended (c : State) (x : Nat × Act) : Prop :=
  (ClearsLive c.shared (c.loc x.1) ∧ RearmsLive c.shared (c.loc x.1) x.2 ∧
    FailsAlone c.shared (c.loc x.1)) ∧ SingleConnect c (c.loc x.1)

/-! ## What a step does to the shared state -/

section Effects

variable {sh : Shared} {e : Effect} {k : ClientId}

/-- What an effect leaves of the flags: each is as it was, or the effect is the one that writes it. -/
structure Effect.Ran (e : Effect) (sh : Shared) : Prop where
  connecting : (e.run sh).connecting = true → sh.connecting = true ∨ e = .connecting true
  owner : (e.run sh).reconnectOwner = true → sh.reconnectOwner = true ∨ e = .owner true
  owner_kept : sh.reconnectOwner = true → (e.run sh).reconnectOwner = true ∨ e = .owner false
  disconnected : (e.run sh).disconnected = true → sh.disconnected = true ∨ e = .disconnected true
  disconnected_kept : sh.disconnected = true →
    (e.run sh).disconnected = true ∨ e = .disconnected false ∨ e = .up
  connectFailed : (e.run sh).connectFailed = true → sh.connectFailed = true ∨ e = .giveBack
  connectFailed_kept : sh.connectFailed = true → (e.run sh).connectFailed = true ∨ e = .up
  connected : (e.run sh).state = .connected → sh.state = .connected ∨ e = .transition .connected
  /-- `Closed` is terminal. -/
  closed : sh.state = .closed → (e.run sh).state = .closed
  spawned : 0 < sh.spawned → 0 < (e.run sh).spawned ∨ e = .start
  client : (e.run sh).client = sh.client ∨ e = .publish

theorem Effect.ran (e : Effect) (sh : Shared) : e.Ran sh := by
  cases e with
  | connecting b | owner b | disconnected b =>
    cases b <;> constructor <;> first
      | exact .inl | exact fun _ => .inr rfl | exact fun _ => .inr (.inl rfl) | exact fun _ => .inl rfl
      | exact id | exact .inl rfl | exact nofun
  | transition want =>
    refine ⟨.inl, .inl, .inl, .inl, .inl, .inl, .inl, fun h => ?_, fun h => ?_, .inl, .inl rfl⟩
    · replace h : sh.state.transitionTo want = .connected := h
      unfold SessionState.transitionTo at h
      split at h
      · exact .inr (by rw [h])
      · exact .inl h
    · show sh.state.transitionTo want = .closed
      rw [h]
      rfl
  | spawn =>
    exact ⟨.inl, .inl, .inl, .inl, .inl, .inl, .inl, .inl, id, fun _ => .inl (Nat.succ_pos _), .inl rfl⟩
  | _ =>
    constructor <;> first
      | exact .inl | exact id | exact .inl rfl | exact .inr rfl | exact fun _ => .inr rfl
      | exact fun _ => .inr (.inr rfl) | exact fun _ => .inl rfl | exact nofun

theorem Effect.le_client_run : sh.client ≤ (e.run sh).client := by
  rcases (e.ran sh).client with h | h
  · exact Nat.le_of_eq h.symm
  · subst h
    exact Nat.le_succ _

theorem Effect.mem_dropped_run (h : k ∈ (e.run sh).dropped) :
    k ∈ sh.dropped ∨ e = .markDropped ∧ k = sh.client ∨ e = .detect k := by
  cases e with
  | markDropped =>
    simp only [Effect.run] at h
    split at h
    · exact .inl h
    rcases mem_cons.1 h with h | h
    · exact .inr (.inl ⟨rfl, h⟩)
    · exact .inl h
  | detect =>
    rcases mem_cons.1 h with h | h
    · exact .inr (.inr (by rw [h]))
    · exact .inl h
  | _ => exact .inl h

theorem Effect.mem_disarmed_run (h : k ∈ (e.run sh).disarmed) :
    k ∈ sh.disarmed ∧ (e = .ondrop true → k ≠ sh.client) ∨ e = .ondrop false ∧ k = sh.client := by
  cases e with
  | ondrop b =>
    cases b with
    | true =>
      have h := mem_filter.1 h
      exact .inl ⟨h.1, fun _ => by simpa using h.2⟩
    | false =>
      rcases mem_cons.1 h with h | h
      · exact .inr ⟨rfl, h⟩
      · exact .inl ⟨h, fun he => nomatch he⟩
  | _ => exact .inl ⟨h, fun he => nomatch he⟩

theorem SessionState.transitionTo_closed (s : SessionState) : s.transitionTo .closed = .closed := by
  cases s <;> rfl

end Effects

/-! ## One step of one goroutine -/

section Steps

variable {sh : Shared} {a : Act} {pc pc' : Pc} {e : Effect} {site : Site}

theorem Site.exit_connects (goesOn known : Bool) : (site.exit goesOn known).connects = site.ofConnect := by
  cases site <;> cases goesOn <;> cases known <;> rfl

theorem Site.exit_inConnect (goesOn known : Bool) :
    (site.exit goesOn known).inConnect = site.ofConnect := by
  cases site <;> cases goesOn <;> cases known <;> rfl

theorem Site.exit_owns (goesOn known : Bool) : (site.exit goesOn known).owns = !site.ofConnect := by
  cases site <;> cases goesOn <;> cases known <;> rfl

theorem Site.exit_active (goesOn known : Bool) : (site.exit goesOn known).active = true := by
  cases site <;> cases goesOn <;> cases known <;> rfl

/-- A region that gives the connection up is followed by a teardown. -/
theorem Site.exit_renews (known : Bool) : (site.exit false known).renews sh = true := by
  cases site <;> cases known <;> rfl

theorem Pc.active_of_connects (h : pc.connects = true) : pc.active = true := by
  cases pc with
  | connect s => cases s <;> first | rfl | cases h
  | handshake site =>
    cases site with
    | reconnectActivation => cases h
    | _ => rfl
  | _ => cases h

theorem Pc.active_of_owns (h : pc.owns = true) : pc.active = true := by
  cases pc with
  | reconnect => rfl
  | handshake site =>
    cases site with
    | reconnectActivation => rfl
    | _ => cases h
  | _ => cases h

theorem Pc.renews_of_inHandshake (h : pc.inHandshake = true) : pc.renews sh = true := by
  cases pc with
  | handshake => rfl
  | _ => cases h

theorem Pc.active_of_inHandshake (h : pc.inHandshake = true) : pc.active = true := by
  cases pc with
  | handshake site => cases site <;> rfl
  | _ => cases h

theorem Pc.of_active_or_reports (h : pc.active = true ∨ pc.reports = true) :
    pc.inConnect = true ∨ pc.inReconnect = true ∨ pc.reports = true := by
  rcases h with h | h
  · cases pc with
    | trigger => exact .inr (.inr rfl)
    | connect =>
      left
      simpa [Pc.active, Pc.inReconnect] using h
    | reconnect => exact .inr (.inl rfl)
    | handshake site => cases site <;> first | exact .inl rfl | exact .inr (.inl rfl)
    | _ => cases h
  · exact .inr (.inr h)

theorem Pc.of_renews (h : pc.renews sh = true) : pc.active = true ∨ pc.reports = true := by
  cases pc with
  | onDrop | trigger => exact .inr rfl
  | handshake => exact .inl (active_of_inHandshake rfl)
  | reconnect => exact .inl rfl
  | connect s => cases s <;> first | exact .inl rfl | cases h
  | _ => cases h

/-- **Who does what**: where a goroutine is, or gets to, that has this effect.  After a dial of Connect or
    Reconnect, `tx.disconnected` is cleared for a live client, or at the start of a handshake region; a
    teardown is by a goroutine that replaces the client, and stays one. -/
def Effect.DoneBy (sh : Shared) (pc pc' : Pc) : Effect → Prop
  | .connecting true => pc'.connects = true
  | .owner true => sh.reconnectOwner = false ∧ pc'.owns = true
  | .owner false => pc.owns = true ∧ pc'.owns = false
  | .ondrop false | .disconnected false => pc'.inHandshake = true
  | .disconnected true | .start => pc'.active = true
  | .markDropped => ∀ sh', pc'.renews sh' = true
  | .detect k => pc' = .onDrop k ∧ k ≤ sh.client
  | .up => ClearsLive sh pc → sh.client ∉ sh.dropped ∨ pc'.inHandshake = true
  | .giveBack => pc = .connect (.unmark false)
  | .transition .connected => pc.established = true
  | _ => True

theorem PlanStep.doneBy (hs : PlanStep sh a pc pc' e) : e.DoneBy sh pc pc' := by
  cases hs with
  | drop k h hk => exact ⟨rfl, hk⟩
  | startReconnect => rfl
  | worker hs | own hs => cases hs <;> trivial
  | connect hs =>
    cases hs with
    | clear => exact .inl
    | reclear => exact fun _ => .inr rfl
    | tear | fail => exact fun _ => rfl
    | _ => trivial
  | handshake hs =>
    cases hs with
    | mark => exact active_of_inHandshake rfl
    | tear => exact fun _ => rfl
    | _ => trivial
  | reconnect hs =>
    cases hs with
    | own h => exact ⟨h, rfl⟩
    | release => exact ⟨rfl, rfl⟩
    | clear => exact .inl
    | tear | resetTear => exact fun _ => rfl
    | _ => trivial
  | _ => trivial

/-- What a goroutine leaves and enters in a step. -/
structure Passes (sh : Shared) (pc pc' : Pc) (e : Effect) : Prop where
  connects_left : pc.connects = true → pc'.connects = true ∨ (e.run sh).connecting = false
  owns_left : pc.owns = true → pc'.owns = true ∨ e = .owner false
  owns_entered : pc'.owns = true → pc.owns = true ∨ e = .owner true
  inHandshake_left : pc.inHandshake = true → pc'.inHandshake = true ∨ e = .ondrop true
  inConnect_entered : pc'.inConnect = true →
    pc.inConnect = true ∨ pc = .connect .enter ∧ sh.state.permits .connecting = true
  /-- Only a dial that has cleared `tx.disconnected` brings a connection up. -/
  established_entered : pc'.established = true →
    pc.established = true ∨ (e.run sh).connectFailed = false

theorem PlanStep.passes (hs : PlanStep sh a pc pc' e) : Passes sh pc pc' e := by
  cases hs with
  | connect hs =>
    cases hs with
    | enter hp => exact ⟨nofun, nofun, nofun, nofun, fun _ => .inr ⟨rfl, hp⟩, nofun⟩
    | failWait k v => cases v <;> constructor <;> first | exact fun _ => .inl rfl | exact nofun
    | _ => constructor <;> first | exact fun _ => .inl rfl | exact fun _ => .inr rfl | exact nofun
  | handshake hs =>
    cases hs with
    | rearm goesOn known =>
      exact ⟨fun h => .inl ((Site.exit_connects ..).trans h), fun h => .inl ((Site.exit_owns ..).trans h),
        fun h => .inl ((Site.exit_owns ..).symm.trans h), fun _ => .inr rfl,
        fun h => .inl ((Site.exit_inConnect ..).symm.trans h), fun _ => .inl rfl⟩
    | _ => exact ⟨.inl, .inl, .inl, fun _ => .inl rfl, .inl, fun _ => .inl rfl⟩
  | reconnect hs =>
    cases hs with
    | failed s hm | giveUp s hm | ended s hm =>
      simp only [mem_cons, not_mem_nil, or_false] at hm
      rcases hm with rfl | rfl | rfl | rfl <;> constructor <;> first | exact fun _ => .inl rfl | exact nofun
    | _ => constructor <;> first | exact fun _ => .inl rfl | exact fun _ => .inr rfl | exact nofun
  | worker hs | own hs => cases hs <;> exact ⟨nofun, nofun, nofun, nofun, nofun, nofun⟩
  | _ => exact ⟨nofun, nofun, nofun, nofun, nofun, nofun⟩

/-- A connection is Connect's or the owner's. -/
theorem Pc.of_established (h : pc.established = true) : pc.inConnect = true ∨ pc.owns = true := by
  cases pc with
  | connect s => cases s <;> first | exact .inl rfl | cases h
  | handshake site => cases site <;> first | exact .inl rfl | exact .inr rfl
  | reconnect s => cases s <;> first | exact .inr rfl | cases h
  | _ => cases h

/-- **Replacing a client.**  A goroutine that was going to deal with a drop still is, or has put the
    drop on record, or has returned an error from Connect; or it was the worker, and found `ondrop`
    nil. -/
theorem PlanStep.renews_left (hs : PlanStep sh a pc pc' e) (h : pc.renews sh = true)
    (hclear : ClearsLive sh pc) (hrearm : RearmsLive sh pc a) :
    pc'.renews (e.run sh) = true ∨ (e.run sh).state = .closed ∨ (e.run sh).disconnected = true ∨
      (e.run sh).connectFailed = true ∨ sh.client ∉ sh.dropped ∨
      pc.inHandshake = false ∧ sh.client ∈ sh.disarmed := by
  cases hs with
  | nilOndrop k hk =>
    have hk' : k = sh.client := by simpa [Pc.renews] using h
    exact .inr (.inr (.inr (.inr (.inr ⟨rfl, hk' ▸ hk⟩))))
  | ondrop => exact .inl rfl
  | worker hs | own hs =>
    cases hs with
    | closed hc => exact .inr (.inl hc)
    | second hd => exact .inr (.inr (.inl hd))
    | first => exact .inr (.inr (.inl rfl))
    | isOpen => exact .inl rfl
    | _ => cases h
  | connect hs =>
    cases hs with
    | clear => exact .inr (.inr (.inr (.inr (.inl hclear))))
    | failWait k v => cases v <;> exact .inl rfl
    | giveBack => exact .inr (.inr (.inr (.inl rfl)))
    | _ => first | exact .inl rfl | cases h
  | handshake hs =>
    cases hs with
    | rearm goesOn known ha =>
      subst ha
      cases goesOn with
      | false => exact .inl (Site.exit_renews known)
      | true =>
        rcases hrearm with ht | hl | hd
        · rw [ht]
          exact .inl rfl
        · exact .inr (.inr (.inr (.inr (.inl hl))))
        · exact .inr (.inr (.inl hd))
    | _ => exact .inl rfl
  | reconnect hs =>
    cases hs with
    | clear => exact .inr (.inr (.inr (.inr (.inl hclear))))
    | giveUp => exact .inr (.inl (SessionState.transitionTo_closed sh.state))
    | ended s hm hc => exact .inr (.inl hc)
    | _ => first | exact .inl rfl | cases h
  | _ => cases h

/-- **Dealing with the flag.**  A goroutine that was going to deal with a set `tx.disconnected` still
    is, or has spawned a Reconnect, or leaves it to the Connect or the Reconnect that suppressed it. -/
theorem PlanStep.active_left (hs : PlanStep sh a pc pc' e) (h : pc.active = true) :
    pc'.active = true ∨ (e.run sh).state = .closed ∨ (e.run sh).disconnected = false ∨
      (e.run sh).connectFailed = true ∨ 0 < (e.run sh).spawned ∨
      pc.connects = false ∧ sh.connecting = true ∨ pc.owns = false ∧ sh.reconnectOwner = true := by
  cases hs with
  | worker hs | own hs =>
    cases hs with
    | closed hc => exact .inr (.inl hc)
    | suppressed hc => exact .inr (.inr (.inr (.inr (.inr (.inl ⟨rfl, hc⟩)))))
    | spawn => exact .inr (.inr (.inr (.inr (.inl (Nat.succ_pos _)))))
    | _ => exact .inl rfl
  | connect hs =>
    cases hs with
    | refused => cases h
    | failWait k v => cases v <;> exact .inl rfl
    | giveBack => exact .inr (.inr (.inr (.inl rfl)))
    | rest hr =>
      rcases hr with hc | hd
      · exact .inr (.inl hc)
      · exact .inr (.inr (.inl hd))
    | _ => exact .inl rfl
  | handshake hs =>
    cases hs with
    | rearm goesOn known => exact .inl (Site.exit_active goesOn known)
    | _ => exact .inl h
  | reconnect hs =>
    cases hs with
    | closed hc => exact .inr (.inl hc)
    | owned ho => exact .inr (.inr (.inr (.inr (.inr (.inr ⟨rfl, ho⟩)))))
    | adopt => exact .inr (.inr (.inr (.inr (.inl (Nat.succ_pos _)))))
    | rest hr =>
      rcases hr with hc | hd
      · exact .inr (.inl hc)
      · exact .inr (.inr (.inl hd))
    | _ => exact .inl rfl
  | _ => cases h

end Steps

/-! ## Somebody is responsible -/

/-- The transport of the current client is down, and `tx.disconnected` does not say so. -/
def Shared.Unrecorded (sh : Shared) : Prop :=
  sh.state ≠ .closed ∧ sh.client ∈ sh.dropped ∧ sh.disconnected = false

/-- **The invariant.**  Each flag that makes a goroutine leave a drop to another one is backed by that
    other goroutine, and so is every drop. -/
structure Responsible (c : State) : Prop where
  dropped : ∀ k ∈ c.shared.dropped, k ≤ c.shared.client
  disarmed : ∀ k ∈ c.shared.disarmed, k ≤ c.shared.client
  connecting : c.shared.connecting = true → ∃ t, (c.loc t).connects = true
  owner : c.shared.reconnectOwner = true → ∃ t, (c.loc t).owns = true
  handshake : c.shared.client ∈ c.shared.disarmed → ∃ t, (c.loc t).inHandshake = true
  /-- A drop that is not on record. -/
  unrecorded : c.shared.Unrecorded →
    c.shared.connectFailed = true ∨ ∃ t, (c.loc t).renews c.shared = true
  /-- A drop that is on record. -/
  recorded : c.shared.state ≠ .closed → c.shared.disconnected = true →
    c.shared.connectFailed = true ∨ 0 < c.shared.spawned ∨ ∃ t, (c.loc t).active = true

theorem responsible_init : Responsible init where
  dropped _ hk := nomatch hk
  disarmed _ hk := nomatch hk
  connecting h := nomatch h
  owner h := nomatch h
  handshake h := nomatch h
  unrecorded h := nomatch h.2.1
  recorded _ h := nomatch h

section Step

variable {c : State} {t : Nat} {a : Act} {pc' : Pc} {e : Effect}

theorem Responsible.connecting_step (hi : Responsible c) (hs : PlanStep c.shared a (c.loc t) pc' e)
    (h : (e.run c.shared).connecting = true) : ∃ u, (update c.loc t pc' u).connects = true := by
  rcases (e.ran _).connecting h with hc | rfl
  · rcases exists_loc_update Pc.connects (hi.connecting hc) hs.passes.connects_left with hu | hn
    · exact hu
    · exact absurd (h.symm.trans hn) (by simp)
  · exact exists_loc_self Pc.connects hs.doneBy

theorem Responsible.owner_step (hi : Responsible c) (hs : PlanStep c.shared a (c.loc t) pc' e)
    (h : (e.run c.shared).reconnectOwner = true) : ∃ u, (update c.loc t pc' u).owns = true := by
  rcases (e.ran _).owner h with ho | rfl
  · rcases exists_loc_update Pc.owns (hi.owner ho) hs.passes.owns_left with hu | rfl
    · exact hu
    · cases h
  · exact exists_loc_self Pc.owns hs.doneBy.2

theorem Responsible.handshake_step (hi : Responsible c) (hs : PlanStep c.shared a (c.loc t) pc' e)
    (h : (e.run c.shared).client ∈ (e.run c.shared).disarmed) :
    ∃ u, (update c.loc t pc' u).inHandshake = true := by
  rcases mem_disarmed_run h with ⟨hd, hne⟩ | ⟨rfl, -⟩
  · rcases (e.ran c.shared).client with hk | rfl
    · rw [hk] at hd hne
      rcases exists_loc_update Pc.inHandshake (hi.handshake hd) hs.passes.inHandshake_left with hu | he
      · exact hu
      · exact absurd rfl (hne he)
    -- a client that has just been published has its `ondrop`
    have hle : c.shared.client + 1 ≤ c.shared.client := hi.disarmed _ hd
    exact absurd hle (Nat.not_succ_le_self _)
  · exact exists_loc_self Pc.inHandshake hs.doneBy

/-- Who replaces the client is not changed by a step that leaves the client alone. -/
theorem Pc.renews_congr {sh sh'} (h : sh'.client = sh.client) (pc : Pc) :
    pc.renews sh' = pc.renews sh := by
  unfold Pc.renews
  rw [h]

/-- **A drop that is not on record**, after a step. -/
theorem Responsible.unrecorded_step (hi : Responsible c) (hs : PlanStep c.shared a (c.loc t) pc' e)
    (hclear : ClearsLive c.shared (c.loc t)) (hrearm : RearmsLive c.shared (c.loc t) a)
    (h : (e.run c.shared).Unrecorded) : (e.run c.shared).connectFailed = true ∨
      ∃ u, (update c.loc t pc' u).renews (e.run c.shared) = true := by
  obtain ⟨hopen, hdrop, hdisc⟩ := h
  have hopen' : c.shared.state ≠ .closed := fun hc => hopen ((e.ran _).closed hc)
  rcases (e.ran c.shared).client with hk | rfl
  · rw [hk] at hdrop
    rcases mem_dropped_run hdrop with hd | ⟨rfl, -⟩ | rfl
    · -- the drop is an old one: the flag was clear already, or this step clears it
      cases hf : c.shared.disconnected with
      | true =>
        rcases (e.ran _).disconnected_kept hf with hd' | rfl | rfl
        · exact absurd (hdisc.symm.trans hd') (by simp)
        · exact .inr (exists_loc_self _ (renews_of_inHandshake hs.doneBy))
        rcases hs.doneBy hclear with hl | hh
        · exact absurd hd hl
        · exact .inr (exists_loc_self _ (renews_of_inHandshake hh))
      | false =>
        rcases hi.unrecorded ⟨hopen', hd, hf⟩ with hfail | hr
        · rcases (e.ran _).connectFailed_kept hfail with hfail | rfl
          · exact .inl hfail
          rcases hs.doneBy hclear with hl | hh
          · exact absurd hd hl
          · exact .inr (exists_loc_self _ (renews_of_inHandshake hh))
        have hr' : ∃ u, (c.loc u).renews (e.run c.shared) = true := by
          obtain ⟨u, hu⟩ := hr
          exact ⟨u, (renews_congr hk _).trans hu⟩
        have hm := fun hu => hs.renews_left ((renews_congr hk _).symm.trans hu) hclear hrearm
        rcases exists_loc_update _ hr' hm with hu | hc | hd' | hfail | hl | ⟨hn, ha⟩
        · exact .inr hu
        · exact absurd hc hopen
        · exact absurd (hdisc.symm.trans hd') (by simp)
        · exact .inl hfail
        · exact absurd hd hl
        -- the worker found `ondrop` nil: somebody else is in a handshake
        obtain ⟨u, hu⟩ := exists_loc_other Pc.inHandshake pc' (hi.handshake ha) hn
        exact .inr ⟨u, renews_of_inHandshake hu⟩
    · exact .inr (exists_loc_self _ (hs.doneBy _))
    · obtain ⟨rfl, -⟩ := hs.doneBy
      exact .inr (exists_loc_self _ (by simp [Pc.renews, hk]))
  · -- a client that has just been published is alive
    have hle : c.shared.client + 1 ≤ c.shared.client := by
      rcases mem_dropped_run hdrop with hd | ⟨he, -⟩ | he
      · exact hi.dropped _ hd
      · cases he
      · cases he
    exact absurd hle (Nat.not_succ_le_self _)

/-- **A drop that is on record**, after a step. -/
theorem Responsible.recorded_step (hi : Responsible c) (hs : PlanStep c.shared a (c.loc t) pc' e)
    (hopen : (e.run c.shared).state ≠ .closed) (hdisc : (e.run c.shared).disconnected = true) :
    (e.run c.shared).connectFailed = true ∨ 0 < (e.run c.shared).spawned ∨
      ∃ u, (update c.loc t pc' u).active = true := by
  have hopen' : c.shared.state ≠ .closed := fun hc => hopen ((e.ran _).closed hc)
  rcases (e.ran _).disconnected hdisc with hd | rfl
  · rcases hi.recorded hopen' hd with hfail | hsp | hact
    · rcases (e.ran _).connectFailed_kept hfail with hfail | rfl
      · exact .inl hfail
      · cases hdisc
    · rcases (e.ran _).spawned hsp with hsp | rfl
      · exact .inr (.inl hsp)
      · exact .inr (.inr (exists_loc_self Pc.active hs.doneBy))
    rcases exists_loc_update Pc.active hact hs.active_left with
      hu | hc | hd' | hfail | hsp | ⟨hn, hc⟩ | ⟨hn, ho⟩
    · exact .inr (.inr hu)
    · exact absurd hc hopen
    · exact absurd (hdisc.symm.trans hd') (by simp)
    · exact .inl hfail
    · exact .inr (.inl hsp)
    · -- suppressed by a Connect, which is still there
      obtain ⟨u, hu⟩ := exists_loc_other Pc.connects pc' (hi.connecting hc) hn
      exact .inr (.inr ⟨u, active_of_connects hu⟩)
    -- another Reconnect holds the ownership, and looks at the flag after it has released it
    obtain ⟨u, hu⟩ := exists_loc_other Pc.owns pc' (hi.owner ho) hn
    exact .inr (.inr ⟨u, active_of_owns hu⟩)
  · exact .inr (.inr (exists_loc_self Pc.active hs.doneBy))

end Step

theorem responsible_step {c c' x} (hi : Responsible c)
    (hclear : ClearsLive c.shared (c.loc x.1)) (hrearm : RearmsLive c.shared (c.loc x.1) x.2)
    (hs : step c x = some c') : Responsible c' := by
  obtain ⟨pc', e, hp, rfl⟩ := step_cases hs
  refine ⟨fun k hk => ?_, fun k hk => ?_, hi.connecting_step hp, hi.owner_step hp,
    hi.handshake_step hp, hi.unrecorded_step hp hclear hrearm, hi.recorded_step hp⟩
  · refine Nat.le_trans ?_ le_client_run
    rcases mem_dropped_run hk with hd | ⟨-, rfl⟩ | rfl
    · exact hi.dropped k hd
    · exact Nat.le_refl _
    · exact hp.doneBy.2
  refine Nat.le_trans ?_ le_client_run
  rcases mem_disarmed_run hk with ⟨hd, -⟩ | ⟨-, rfl⟩
  · exact hi.disarmed k hd
  · exact Nat.le_refl _

/-! ## A Connect that has failed -/

/-- **The invariant.**  One Connect at a time and one owner, and no connection comes up or stays up
    when a Connect has returned an error. -/
structure Exclusive (c : State) : Prop where
  connect : ∀ t u, (c.loc t).inConnect = true → (c.loc u).inConnect = true → t = u
  owner : ∀ t u, (c.loc t).owns = true → (c.loc u).owns = true → t = u
  owned : ∀ t, (c.loc t).owns = true → c.shared.reconnectOwner = true
  failed : c.shared.connectFailed = true →
    c.shared.state ≠ .connected ∧ ∀ t, (c.loc t).established = false

theorem exclusive_init : Exclusive init where
  connect _ _ h := nomatch h
  owner _ _ h := nomatch h
  owned _ h := nomatch h
  failed h := nomatch h

/-- Two parties of a kind are one, when the moving party joins the kind only if nobody is of it. -/
theorem unique_update {p : Pc → Bool} {l : Nat → Pc} {t pc'}
    (hu : ∀ u v, p (l u) = true → p (l v) = true → u = v)
    (hm : p pc' = true → p (l t) = true ∨ ∀ u, p (l u) = false) (u v : Nat)
    (h : p (update l t pc' u) = true) (h' : p (update l t pc' v) = true) : u = v := by
  by_cases hut : u = t <;> by_cases hvt : v = t
  · exact hut.trans hvt.symm
  · rw [hut, update_self] at h
    rw [update_of_ne hvt] at h'
    rcases hm h with ht | hn
    · exact hut.trans (hu t v ht h')
    · exact absurd ((hn v).symm.trans h') (by simp)
  · rw [update_of_ne hut] at h
    rw [hvt, update_self] at h'
    rcases hm h' with ht | hn
    · exact (hu u t h ht).trans hvt.symm
    · exact absurd ((hn u).symm.trans h) (by simp)
  rw [update_of_ne hut] at h
  rw [update_of_ne hvt] at h'
  exact hu u v h h'

section Step

variable {c : State} {t : Nat} {a : Act} {pc' : Pc} {e : Effect}

theorem Exclusive.owned_step (hi : Exclusive c) (hs : PlanStep c.shared a (c.loc t) pc' e) (u : Nat)
    (h : (update c.loc t pc' u).owns = true) : (e.run c.shared).reconnectOwner = true := by
  by_cases hut : u = t
  · subst hut
    rw [update_self] at h
    rcases hs.passes.owns_entered h with ho | rfl
    · rcases (e.ran _).owner_kept (hi.owned u ho) with hk | rfl
      · exact hk
      · exact absurd (hs.doneBy.2.symm.trans h) (by simp)
    · rfl
  rw [update_of_ne hut] at h
  rcases (e.ran _).owner_kept (hi.owned u h) with hk | rfl
  · exact hk
  · -- the goroutine that releases is the owner
    exact absurd (hi.owner u t h hs.doneBy.1) hut

/-- The end of a Connect that fails: nobody else has a connection. -/
theorem Exclusive.not_established (hi : Exclusive c) (ht : c.loc t = .connect (.unmark false))
    (hf : FailsAlone c.shared (c.loc t)) (u : Nat) : (c.loc u).established = false := by
  rw [ht] at hf
  by_contra hu
  have hu : (c.loc u).established = true := by simpa using hu
  rcases of_established hu with hc | ho
  · have hut : u = t := hi.connect u t hc (by rw [ht]; rfl)
    rw [hut, ht] at hu
    cases hu
  · exact absurd ((hi.owned u ho).symm.trans hf.1) (by simp)

theorem Exclusive.failed_step (hi : Exclusive c) (hs : PlanStep c.shared a (c.loc t) pc' e)
    (hf : FailsAlone c.shared (c.loc t)) (h : (e.run c.shared).connectFailed = true) :
    (e.run c.shared).state ≠ .connected ∧
      ∀ u, (update c.loc t pc' u).established = false := by
  have hbefore : c.shared.state ≠ .connected ∧ ∀ u, (c.loc u).established = false := by
    rcases (e.ran _).connectFailed h with hb | rfl
    · exact hi.failed hb
    have ht := hs.doneBy
    refine ⟨?_, hi.not_established ht hf⟩
    rw [ht] at hf
    exact hf.2
  constructor
  · intro hc
    rcases (e.ran _).connected hc with hc | rfl
    · exact hbefore.1 hc
    · exact absurd ((hbefore.2 t).symm.trans hs.doneBy) (by simp)
  intro u
  by_cases hut : u = t
  · subst hut
    rw [update_self]
    by_contra hu
    rcases hs.passes.established_entered (by simpa using hu) with he | hn
    · exact absurd ((hbefore.2 u).symm.trans he) (by simp)
    · exact absurd (hn.symm.trans h) (by simp)
  · rw [update_of_ne hut]
    exact hbefore.2 u

end Step

theorem exclusive_step {c c' x} (hi : Exclusive c)
    (hf : FailsAlone c.shared (c.loc x.1)) (hsingle : SingleConnect c (c.loc x.1))
    (hs : step c x = some c') : Exclusive c' := by
  obtain ⟨pc', e, hp, rfl⟩ := step_cases hs
  refine ⟨unique_update hi.connect fun h => ?_, unique_update hi.owner fun h => ?_,
    hi.owned_step hp, hi.failed_step hp hf⟩
  · rcases hp.passes.inConnect_entered h with hc | ⟨hc, hperm⟩
    · exact .inl hc
    · rw [hc] at hsingle
      exact .inr (hsingle hperm)
  rcases hp.passes.owns_entered h with ho | rfl
  · exact .inl ho
  refine .inr fun u => ?_
  have hfree := hp.doneBy.1
  by_contra hu
  exact absurd ((hi.owned u (by simpa using hu)).symm.trans hfree) (by simp)

/-! ## No drop is lost -/

/-- A Connect is in progress, a Reconnect is running or spawned, or the drop is just being
    reported. -/
def Adopted (c : State) : Prop :=
  (∃ t, (c.loc t).inConnect = true) ∨ (∃ t, (c.loc t).inReconnect = true) ∨ 0 < c.shared.spawned ∨
    ∃ t, (c.loc t).reports = true

/-- **No drop is lost.**  When the current client of an open session has dropped, the drop is adopted,
    or a Connect has returned an error and nothing has come up since; and the session is not
    `Connected` then. -/
theorem drop_adopted {c : State} (h : Run step Attended init c)
    (hopen : c.shared.state ≠ .closed) (hdrop : c.shared.client ∈ c.shared.dropped) :
    Adopted c ∨ c.shared.connectFailed = true ∧ c.shared.state ≠ .connected := by
  have hr : Responsible c := h.invariant responsible_init fun _ _ _ hi hok hs =>
    responsible_step hi hok.1.1 hok.1.2.1 hs
  have hx : Exclusive c := h.invariant exclusive_init fun _ _ _ hi hok hs =>
    exclusive_step hi hok.1.2.2 hok.2 hs
  have hwork : c.shared.connectFailed = true ∨ 0 < c.shared.spawned ∨
      ∃ t, (c.loc t).active = true ∨ (c.loc t).reports = true := by
    cases hd : c.shared.disconnected with
    | false =>
      rcases hr.unrecorded ⟨hopen, hdrop, hd⟩ with hf | ⟨t, ht⟩
      · exact .inl hf
      · exact .inr (.inr ⟨t, of_renews ht⟩)
    | true =>
      rcases hr.recorded hopen hd with hf | hsp | ⟨t, ht⟩
      · exact .inl hf
      · exact .inr (.inl hsp)
      · exact .inr (.inr ⟨t, .inl ht⟩)
  rcases hwork with hf | hsp | ⟨t, ht⟩
  · exact .inr ⟨hf, (hx.failed hf).1⟩
  · exact .inl (.inr (.inr (.inl hsp)))
  left
  rcases of_active_or_reports ht with hc | hrec | hrep
  · exact .inl ⟨t, hc⟩
  · exact .inr (.inl ⟨t, hrec⟩)
  · exact .inr (.inr (.inr ⟨t, hrep⟩))

/-- Nobody is on the drop when every goroutine is idle and none is spawned. -/
theorem not_adopted {c} (hidle : ∀ t, c.loc t = .idle) (hsp : c.shared.spawned = 0) :
    ¬ Adopted c := by
  rintro (⟨t, ht⟩ | ⟨t, ht⟩ | h | ⟨t, ht⟩)
  · rw [hidle t] at ht
    cases ht
  · rw [hidle t] at ht
    cases ht
  · omega
  · rw [hidle t] at ht
    cases ht

/-- The decidable part of `Attended`, for steps that do not begin a Connect. -/
def Attentive (c : State) (x : Nat × Act) : Prop :=
  (ClearsLive c.shared (c.loc x.1) ∧ RearmsLive c.shared (c.loc x.1) x.2 ∧
    FailsAlone c.shared (c.loc x.1)) ∧ c.loc x.1 ≠ .connect .enter

instance (sh : Shared) (pc : Pc) : Decidable (ClearsLive sh pc) := by
  unfold ClearsLive
  split <;> infer_instance

instance (sh : Shared) (pc : Pc) (a : Act) : Decidable (RearmsLive sh pc a) := by
  unfold RearmsLive
  split <;> infer_instance

instance (sh : Shared) (pc : Pc) : Decidable (FailsAlone sh pc) := by
  unfold FailsAlone
  split <;> infer_instance

instance (c : State) (x : Nat × Act) : Decidable (Attentive c x) := by
  unfold Attentive
  infer_instance

theorem Attentive.attended {c x} (h : Attentive c x) : Attended c x := by
  refine ⟨h.1, ?_⟩
  unfold SingleConnect
  split
  · next he => exact absurd he h.2
  · trivial

/-- Goroutine 0 has called Connect, and passed its gate. -/
def entered : State where
  shared := { init.shared with state := .connecting }
  loc := update (update init.loc 0 (.connect .enter)) 0 (.connect .mark)

theorem run_entered : Run step Attended init entered := by
  refine .snoc (0, .next) (.snoc (0, .callConnect) .refl ⟨⟨trivial, trivial, trivial⟩, trivial⟩ rfl)
    ⟨⟨trivial, trivial, trivial⟩, fun _ u => ?_⟩ rfl
  by_cases hu : u = 0
  · subst hu
    rfl
  · rw [loc_of_ne hu]
    rfl

/-- Goroutine 0 goes on to dial, and its Connect is about to read the symbol version. -/
def dialed : List (Nat × Act) :=
  [(0, .next), (0, .answer true), (0, .next), (0, .answer true), (0, .next)]

def succeeds : List (Nat × Act) :=
  [(0, .answer true), (0, .next), (0, .next), (0, .next)]

/-- A worker of client `k`, as goroutine 1, sees the connection drop and reports it, in `n` steps. -/
def dropSeen (k : ClientId) (n : Nat) : List (Nat × Act) :=
  (1, .drop k) :: replicate n (1, .next)

theorem drop_adopted_connected : ∃ c : State, Run step Attended init c ∧ c.shared.state ≠ .closed ∧
      c.shared.client ∈ c.shared.dropped ∧ c.shared.spawned = 1 ∧
      (Adopted c ∨ c.shared.connectFailed = true ∧ c.shared.state ≠ .connected) := by
  obtain ⟨c, hrun, hopen, hdrop, hsp⟩ := exists_run step Attentive entered
    (fun c => c.shared.state ≠ .closed ∧ c.shared.client ∈ c.shared.dropped ∧
      c.shared.spawned = 1) (dialed ++ succeeds ++ dropSeen 1 7) (by decide +kernel)
  have hall := run_entered.trans (hrun.weaken fun _ _ h => h.attended)
  exact ⟨c, hall, hopen, hdrop, hsp, drop_adopted hall hopen hdrop⟩

def callConnect : List (Nat × Act) := [(0, .callConnect), (0, .next)]

/-- The worker reports the drop, the Connect's request fails, and it returns the error. -/
def connectFails : List (Nat × Act) :=
  callConnect ++ dialed ++ dropSeen 1 6 ++ (0, .answer false) :: replicate 5 (0, .next)

/-- Goroutine 2 reconnects and publishes client 2, whose connection drops before the flag is cleared;
    the Reconnect that the worker spawns, goroutine 3, finds the ownership taken. -/
def dropForgotten : List (Nat × Act) :=
  callConnect ++ dialed ++ succeeds ++ dropSeen 1 7 ++
    (2, .startReconnect) :: replicate 8 (2, .next) ++ [(2, .answer true)] ++ dropSeen 2 6 ++
    (3, .startReconnect) :: replicate 2 (3, .next) ++
    (2, .next) :: replicate 4 (2, .answer true) ++ replicate 3 (2, .next)

theorem idle_of_four {c : State} {as : List (Nat × Act)} (has : ∀ a ∈ as, a.1 < 4)
    (hrest : ∀ t, (∀ a ∈ as, a.1 ≠ t) → c.loc t = init.loc t)
    (h : ∀ t ∈ range 4, c.loc t = .idle) (t : Nat) : c.loc t = .idle := by
  by_cases ht : t < 4
  · exact h t (mem_range.2 ht)
  refine hrest t fun a ha heq => ht ?_
  rw [← heq]
  exact has a ha

/-- A Connect that sees the drop returns its error, and leaves the session to its caller.  A drop that
    comes between the publication of a client and the clearing of the flag is forgotten: the session
    rests in `Connected`. -/
theorem drop_not_adopted : (¬ ∀ c : State, Run step anyStep init c → c.shared.state ≠ .closed →
      c.shared.client ∈ c.shared.dropped → Adopted c) ∧
    ¬ ∀ c : State, Run step anyStep init c → c.shared.state = .connected →
      c.shared.client ∈ c.shared.dropped → Adopted c := by
  constructor
  · intro hall
    obtain ⟨c, hrun, ⟨⟨hopen, hdrop, hsp⟩, hidle⟩, hrest⟩ := exists_run act anyStep init
      (fun c => (c.shared.state ≠ .closed ∧ c.shared.client ∈ c.shared.dropped ∧
        c.shared.spawned = 0) ∧ ∀ t ∈ range 4, c.loc t = .idle) connectFails (by decide +kernel)
    exact not_adopted (idle_of_four (by decide) hrest hidle) hsp (hall c hrun hopen hdrop)
  intro hall
  obtain ⟨c, hrun, ⟨⟨hconn, hdrop, hsp⟩, hidle⟩, hrest⟩ := exists_run act anyStep init
    (fun c => (c.shared.state = .connected ∧ c.shared.client ∈ c.shared.dropped ∧
      c.shared.spawned = 0) ∧ ∀ t ∈ range 4, c.loc t = .idle) dropForgotten (by decide +kernel)
  exact not_adopted (idle_of_four (by decide) hrest hidle) hsp (hall c hrun hconn hdrop)

end GoAds.Session
