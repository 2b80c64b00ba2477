import GoAds.Session.System

/-!
# `Session.Steps` — the steps of a session, read backwards

For each function of `Session.System` a relation with one rule per branch, and the lemma that a step of
the function is by one of the rules.  What a step preserves is then proved by cases on the rules.
-/

namespace GoAds.Session

open Interleaving

inductive TriggerStep (sh : Shared) (w : Option ClientId) (caller : Pc) : Trigger → Pc → Effect → Prop
  | closed (h : sh.state = .closed) : TriggerStep sh w caller .isClosed caller .none
  | isOpen : TriggerStep sh w caller .isClosed (.trigger w .cas) .none
  | second (h : sh.disconnected = true) : TriggerStep sh w caller .cas (.trigger w .gate) .none
  | first : TriggerStep sh w caller .cas (.trigger w .transition) (.disconnected true)
  | transition : TriggerStep sh w caller .transition (.trigger w .gate) (.transition .disconnected)
  | suppressed (h : sh.connecting = true) : TriggerStep sh w caller .gate caller .none
  | pass : TriggerStep sh w caller .gate (.trigger w .spawn) .none
  | spawn : TriggerStep sh w caller .spawn caller .spawn

inductive ConnectStep (sh : Shared) : Connect → Pc → Effect → Prop
  | refused : ConnectStep sh .enter .idle .none
  | enter (h : sh.state.permits .connecting = true) :
      ConnectStep sh .enter (.connect .mark) (.transition .connecting)
  | mark : ConnectStep sh .mark (.connect .dial) (.connecting true)
  | dial : ConnectStep sh .dial (.connect .clear) .publish
  | dialFailed : ConnectStep sh .dial (.connect .rollback) .none
  | clear : ConnectStep sh .clear (.connect .localMode) .up
  | localMode : ConnectStep sh .localMode (.connect .route) .none
  | localFailed : ConnectStep sh .localMode (.connect (.fail false)) .none
  | skip : ConnectStep sh .route (.connect .version) .none
  | route : ConnectStep sh .route (.handshake .ensureRouteOnConnect .disarm) .none
  | routeFailed : ConnectStep sh .route (.connect (.fail false)) .none
  | tear : ConnectStep sh .tear (.connect (.wait sh.client)) .markDropped
  | wait (k : ClientId) : ConnectStep sh (.wait k) (.connect .redial) (.stopped k)
  | redial : ConnectStep sh .redial (.connect .reclear) .publish
  | redialFailed : ConnectStep sh .redial (.connect .rollback) .none
  | reclear : ConnectStep sh .reclear (.handshake .connectActivation .disarm) .up
  | version : ConnectStep sh .version (.connect .enterConnected) .none
  | versionFailed : ConnectStep sh .version (.connect (.fail true)) .none
  | enterConnected : ConnectStep sh .enterConnected (.connect (.unmark true)) (.transition .connected)
  | fail (v : Bool) : ConnectStep sh (.fail v) (.connect (.failWait sh.client v)) .markDropped
  | failWait (k : ClientId) (v : Bool) :
      ConnectStep sh (.failWait k v) (.connect (if v then .disconnect else .rollback)) (.stopped k)
  | disconnect : ConnectStep sh .disconnect (.connect .rollback) (.transition .disconnected)
  | rollback : ConnectStep sh .rollback (.connect .rollbackTo) .none
  | kept : ConnectStep sh .rollback (.connect (.unmark false)) .none
  | rollbackTo : ConnectStep sh .rollbackTo (.connect (.unmark false)) (.transition .disconnected)
  | unmark : ConnectStep sh (.unmark true) (.connect .adopt) (.connecting false)
  | giveBack : ConnectStep sh (.unmark false) .idle .giveBack
  | adopt : ConnectStep sh .adopt (.trigger none .isClosed) .none
  | rest (h : sh.state = .closed ∨ sh.disconnected = false) : ConnectStep sh .adopt .idle .none

/-- The label is kept: it says what the end of the region leads to. -/
inductive HandshakeStep (sh : Shared) (site : Site) (a : Act) : Handshake → Pc → Effect → Prop
  | disarm : HandshakeStep sh site a .disarm (.handshake site .probe) (.ondrop false)
  | probe : HandshakeStep sh site a .probe (.handshake site .probe) .none
  | answer (ok : Bool) : HandshakeStep sh site a .probe (.handshake site (.rearm ok)) .none
  | again : HandshakeStep sh site a .probe (.handshake site .mark) .none
  | mark : HandshakeStep sh site a .mark (.handshake site .tear) (.disconnected true)
  | tear : HandshakeStep sh site a .tear (.handshake site (.wait sh.client)) .markDropped
  | wait (k : ClientId) : HandshakeStep sh site a (.wait k) (.handshake site .dial) (.stopped k)
  | dial : HandshakeStep sh site a .dial (.handshake site .clear) .publish
  | dialFailed : HandshakeStep sh site a .dial (.handshake site (.rearm false)) .none
  | clear : HandshakeStep sh site a .clear (.handshake site .redisarm) (.disconnected false)
  | redisarm : HandshakeStep sh site a .redisarm (.handshake site .probe) (.ondrop false)
  | rearm (goesOn known : Bool) (h : a = .answer known) :
      HandshakeStep sh site a (.rearm goesOn) (site.exit goesOn known) (.ondrop true)

inductive ReconnectStep (sh : Shared) : Reconnect → Pc → Effect → Prop
  | closed (h : sh.state = .closed) : ReconnectStep sh .isClosed .idle .none
  | isOpen : ReconnectStep sh .isClosed (.reconnect .own) .none
  | owned (h : sh.reconnectOwner = true) : ReconnectStep sh .own .idle .none
  | own (h : sh.reconnectOwner = false) : ReconnectStep sh .own (.reconnect .enter) (.owner true)
  | enter : ReconnectStep sh .enter (.reconnect .cooldown) (.transition .reconnecting)
  | refused : ReconnectStep sh .enter (.reconnect .release) .none
  | cooldown : ReconnectStep sh .cooldown (.reconnect .mark) .none
  | mark : ReconnectStep sh .mark (.reconnect .tear) (.disconnected true)
  | tear : ReconnectStep sh .tear (.reconnect (.wait sh.client)) .markDropped
  | wait (k : ClientId) : ReconnectStep sh (.wait k) (.reconnect .loop) (.stopped k)
  | loop : ReconnectStep sh .loop (.reconnect .dial) .none
  | dial : ReconnectStep sh .dial (.reconnect .clear) .publish
  | dialFailed : ReconnectStep sh .dial (.reconnect .sleep) .none
  | clear : ReconnectStep sh .clear (.reconnect .localMode) .up
  | localMode : ReconnectStep sh .localMode (.reconnect .route) .none
  | route : ReconnectStep sh .route (.reconnect .reload) .none
  | await : ReconnectStep sh .route (.handshake .reconnectActivation .disarm) .none
  | reload : ReconnectStep sh .reload (.reconnect .resubscribe) .none
  | resubscribe : ReconnectStep sh .resubscribe (.reconnect .enterConnected) .none
  | failed (s : Reconnect) (h : s ∈ [.localMode, .route, .reload, .resubscribe]) :
      ReconnectStep sh s (.reconnect .reset) .none
  | enterConnected : ReconnectStep sh .enterConnected (.reconnect .release) (.transition .connected)
  | reset : ReconnectStep sh .reset (.reconnect .resetTear) (.disconnected true)
  | resetTear : ReconnectStep sh .resetTear (.reconnect (.resetWait sh.client)) .markDropped
  | resetWait (k : ClientId) : ReconnectStep sh (.resetWait k) (.reconnect .sleep) (.stopped k)
  | resetAgain (k : ClientId) : ReconnectStep sh (.resetWait k) (.reconnect .resetTear) (.stopped k)
  | sleep : ReconnectStep sh .sleep (.reconnect .loop) .none
  | giveUp (s : Reconnect) (h : s ∈ [.cooldown, .loop, .sleep]) :
      ReconnectStep sh s (.reconnect .release) (.transition .closed)
  | ended (s : Reconnect) (h : s ∈ [.cooldown, .loop, .sleep]) (hc : sh.state = .closed) :
      ReconnectStep sh s (.reconnect .release) .none
  | release : ReconnectStep sh .release (.reconnect .adopt) (.owner false)
  | adopt : ReconnectStep sh .adopt .idle .spawn
  | rest (h : sh.state = .closed ∨ sh.disconnected = false) : ReconnectStep sh .adopt .idle .none

inductive PlanStep (sh : Shared) (a : Act) : Pc → Pc → Effect → Prop
  | drop (k : ClientId) (h : k ≠ 0) (hk : k ≤ sh.client) : PlanStep sh a .idle (.onDrop k) (.detect k)
  | silence : PlanStep sh a .idle (.trigger none .isClosed) .none
  | callConnect : PlanStep sh a .idle (.connect .enter) .none
  | callReconnect : PlanStep sh a .idle (.reconnect .isClosed) .none
  | startReconnect : PlanStep sh a .idle (.reconnect .isClosed) .start
  | close : PlanStep sh a .idle .idle (.transition .closed)
  | nilOndrop (k : ClientId) (h : k ∈ sh.disarmed) : PlanStep sh a (.onDrop k) (.handled k) .none
  | ondrop (k : ClientId) : PlanStep sh a (.onDrop k) (.trigger (some k) .isClosed) .none
  | handled (k : ClientId) : PlanStep sh a (.handled k) .idle (.handled k)
  | worker {k : ClientId} {s : Trigger} {pc : Pc} {e : Effect}
      (h : TriggerStep sh (some k) (.handled k) s pc e) : PlanStep sh a (.trigger (some k) s) pc e
  | own {s : Trigger} {pc : Pc} {e : Effect} (h : TriggerStep sh none .idle s pc e) :
      PlanStep sh a (.trigger none s) pc e
  | connect {s : Connect} {pc : Pc} {e : Effect} (h : ConnectStep sh s pc e) :
      PlanStep sh a (.connect s) pc e
  | handshake {site : Site} {s : Handshake} {pc : Pc} {e : Effect} (h : HandshakeStep sh site a s pc e) :
      PlanStep sh a (.handshake site s) pc e
  | reconnect {s : Reconnect} {pc : Pc} {e : Effect} (h : ReconnectStep sh s pc e) :
      PlanStep sh a (.reconnect s) pc e

variable {a : Act} {e : Effect} {pc : Pc} {sh : Shared}

theorem triggerStep_cases {w caller s}
    (h : triggerStep sh w caller s = some (pc, e)) : TriggerStep sh w caller s pc e := by
  unfold triggerStep at h
  split at h
  · cases h
    split
    · next hc => exact .closed hc
    · exact .isOpen
  · split at h <;> cases h
    · next hd => exact .second hd
    · exact .first
  · cases h
    exact .transition
  · cases h
    split
    · next hc => exact .suppressed hc
    · exact .pass
  · cases h
    exact .spawn

theorem connectStep_cases {s} (h : connectStep sh s a = some (pc, e)) : ConnectStep sh s pc e := by
  unfold connectStep at h
  split at h
  · split at h <;> cases h
    · next hp => exact .enter hp
    · exact .refused
  · cases h
    exact .mark
  · cases h
    exact .dial
  · cases h
    exact .dialFailed
  · cases h
    exact .clear
  · cases h
    split
    · exact .localMode
    · exact .localFailed
  · cases h
    exact .skip
  · cases h
    exact .route
  · cases h
    exact .routeFailed
  · cases h
    exact .tear
  · split at h <;> cases h
    exact .wait _
  · split at h <;> cases h
    · exact .redial
    · exact .redialFailed
  · cases h
    exact .reclear
  · cases h
    split
    · exact .version
    · exact .versionFailed
  · cases h
    exact .enterConnected
  · cases h
    exact .fail _
  · split at h <;> cases h
    exact .failWait _ _
  · cases h
    exact .disconnect
  · cases h
    split
    · exact .rollback
    · exact .kept
  · cases h
    exact .rollbackTo
  · cases h
    exact .unmark
  · cases h
    exact .giveBack
  · split at h <;> cases h
    · exact .adopt
    next hn =>
    refine .rest ?_
    by_cases hc : sh.state = .closed
    · exact .inl hc
    · exact .inr (by simpa [hc] using hn)
  · cases h

theorem handshakeStep_cases {site s}
    (h : handshakeStep sh site s a = some (pc, e)) : HandshakeStep sh site a s pc e := by
  unfold handshakeStep at h
  split at h
  · cases h
    exact .disarm
  · cases h
    exact .probe
  · cases h
    exact .answer _
  · cases h
    exact .again
  · cases h
    exact .mark
  · cases h
    exact .tear
  · split at h <;> cases h
    exact .wait _
  · split at h <;> cases h
    · exact .dial
    · exact .dialFailed
  · cases h
    exact .clear
  · cases h
    exact .redisarm
  · cases h
    exact .rearm _ _ rfl
  · cases h

theorem reconnectStep_cases {s}
    (h : reconnectStep sh s a = some (pc, e)) : ReconnectStep sh s pc e := by
  unfold reconnectStep at h
  split at h
  · cases h
    split
    · next hc => exact .closed hc
    · exact .isOpen
  · split at h <;> cases h
    · next ho => exact .owned ho
    · next ho => exact .own (by simpa using ho)
  · split at h <;> cases h
    · exact .enter
    · exact .refused
  · cases h
    exact .cooldown
  · cases h
    exact .giveUp _ (by simp)
  · split at h <;> cases h
    next hc => exact .ended _ (by simp) hc
  · cases h
    exact .mark
  · cases h
    exact .tear
  · split at h <;> cases h
    exact .wait _
  · cases h
    split
    · next hc => exact .ended _ (by simp) hc
    · exact .loop
  · cases h
    exact .giveUp _ (by simp)
  · split at h <;> cases h
    · exact .dial
    · exact .dialFailed
  · cases h
    exact .clear
  · cases h
    split
    · exact .localMode
    · exact .failed _ (by simp)
  · cases h
    split
    · exact .route
    · exact .failed _ (by simp)
  · cases h
    exact .await
  · cases h
    split
    · exact .reload
    · exact .failed _ (by simp)
  · cases h
    split
    · exact .resubscribe
    · exact .failed _ (by simp)
  · cases h
    exact .enterConnected
  · cases h
    exact .reset
  · cases h
    exact .resetTear
  · split at h <;> cases h
    exact .resetWait _
  · split at h <;> cases h
    exact .resetAgain _
  · cases h
    exact .sleep
  · cases h
    exact .giveUp _ (by simp)
  · split at h <;> cases h
    next hc => exact .ended _ (by simp) hc
  · cases h
    exact .release
  · split at h <;> cases h
    · exact .adopt
    next hn =>
    refine .rest ?_
    by_cases hc : sh.state = .closed
    · exact .inl hc
    · exact .inr (by simpa [hc] using hn)
  · cases h

theorem plan_cases {pc'} (h : pc.plan sh a = some (pc', e)) : PlanStep sh a pc pc' e := by
  unfold Pc.plan at h
  split at h
  · unfold idleStep at h
    split at h
    · split at h <;> cases h
      next hk => exact .drop _ hk.1 hk.2.1
    · cases h
      exact .silence
    · cases h
      exact .callConnect
    · cases h
      exact .callReconnect
    · split at h <;> cases h
      exact .startReconnect
    · cases h
      exact .close
    · cases h
  · cases h
    split
    · next hk => exact .nilOndrop _ hk
    · exact .ondrop _
  · cases h
    exact .handled _
  · exact .worker (triggerStep_cases h)
  · exact .own (triggerStep_cases h)
  · exact .connect (connectStep_cases h)
  · exact .handshake (handshakeStep_cases h)
  · exact .reconnect (reconnectStep_cases h)
  · cases h

/-- **One step.**  The goroutine moves as planned, and the shared state changes by the planned
    effect. -/
theorem step_cases {c c' t} (h : step c (t, a) = some c') :
    ∃ pc e, PlanStep c.shared a (c.loc t) pc e ∧
      c' = ⟨e.run c.shared, Function.update c.loc t pc⟩ := by
  obtain ⟨pc, sh', ha, rfl⟩ := Conf.exec_eq_some.1 h
  simp only [act, Option.map_eq_some_iff, Prod.exists, Prod.mk.injEq] at ha
  obtain ⟨pc, e, hp, rfl, rfl⟩ := ha
  exact ⟨pc, e, plan_cases hp, rfl⟩

end GoAds.Session
