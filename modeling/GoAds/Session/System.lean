import GoAds.Lib.Interleaving

/-!
# `Session.System` — Connect, Reconnect, triggerReconnect and the workers of a `Client`

The part of a session that keeps its transport up.  A transport drop is recorded in three places: the
channel `dropped` of the `Client` whose connection it was, the flag `tx.disconnected`, and the
goroutine that holds `reconnectOwner`.

A goroutine's local state says which function it is in and where (`Pc`), and a step is the code
between two accesses to the shared fields.  The label of a step gives every answer that comes from
outside: a dial or a request that succeeds or fails, a cancelled context, a drop that a worker sees.

Cooldowns, back-offs, the attempt counters and the request bodies decide only when such an answer
comes, so they are labels too.
-/

namespace GoAds.Session

open Interleaving

/-! ## The state machine of a session -/

inductive SessionState
  | constructed | connecting | connected | reloading | disconnected | reconnecting | closed
  deriving DecidableEq, Repr

/-- The table `allowedTransitions`. -/
def allowedTransitions : SessionState → List SessionState
  | .constructed => [.connecting, .closed]
  | .connecting => [.connected, .reconnecting, .disconnected, .closed]
  | .connected => [.reloading, .disconnected, .reconnecting, .closed]
  | .reloading => [.connected, .disconnected, .closed]
  | .disconnected => [.reconnecting, .connecting, .closed]
  | .reconnecting => [.connected, .reconnecting, .closed]
  | .closed => []

/-- `transitionTo`: an illegal transition leaves the state alone. -/
def SessionState.transitionTo (s want : SessionState) : SessionState :=
  if want ∈ allowedTransitions s then want else s

/-- `transitionToOnce` answers `true`: the transition is legal and goes to another state. -/
def SessionState.permits (s want : SessionState) : Bool :=
  s ≠ want && want ∈ allowedTransitions s

/-! ## Shared state -/

/-- A `Client` is named by the number of clients published up to it; the name of `nil` is 0. -/
abbrev ClientId := Nat

structure Shared where
  state : SessionState
  /-- `tx.disconnected`. -/
  disconnected : Bool
  /-- `lifecycle.connecting`. -/
  connecting : Bool
  reconnectOwner : Bool
  /-- `sess.client`. -/
  client : ClientId
  /-- The clients whose channel `dropped` is closed. -/
  dropped : List ClientId
  /-- The clients whose `ondrop` is nil. -/
  disarmed : List ClientId
  stopped : List ClientId
  /-- The clients of the workers that are inside `callOnDrop`. -/
  handlers : List ClientId
  /-- Reconnect goroutines that have been spawned and have not run yet. -/
  spawned : Nat
  /-- A history variable: a Connect has returned an error, and no connection has come up since. -/
  connectFailed : Bool

/-! ## Where a goroutine is -/

/-- `triggerReconnect`. -/
inductive Trigger
  | isClosed | cas | transition | gate | spawn
  deriving DecidableEq

/-- `Connect`.  After `fail` it is on an error return; `tear` and `redial` belong to the dial after a
    route registration. -/
inductive Connect
  | enter | mark | dial | clear | localMode | route
  | tear | wait (k : ClientId) | redial | reclear
  | version | enterConnected
  | fail (atVersion : Bool) | failWait (k : ClientId) (atVersion : Bool) | disconnect
  | rollback | rollbackTo | unmark (ok : Bool) | adopt
  deriving DecidableEq

inductive Reconnect
  | isClosed | own | enter | cooldown | mark | tear | wait (k : ClientId)
  | loop | dial | clear | localMode | route | reload | resubscribe | enterConnected
  | reset | resetTear | resetWait (k : ClientId) | sleep
  | release | adopt
  deriving DecidableEq

/-- `ensureRouteOnConnect` and `awaitRouteActive`: the regions in which `ondrop` is disarmed, with
    `redialDuringHandshake` inside.  `rearm` carries whether the caller goes on with the connection. -/
inductive Handshake
  | disarm | probe | mark | tear | wait (k : ClientId) | dial | clear | redisarm
  | rearm (goesOn : Bool)
  deriving DecidableEq

/-- The three places that open a handshake region. -/
inductive Site
  | ensureRouteOnConnect | connectActivation | reconnectActivation
  deriving DecidableEq

inductive Pc
  | idle
  /-- A worker of client `k` in `callOnDrop`, after `markDropped`. -/
  | onDrop (k : ClientId)
  /-- `triggerReconnect`, called by a worker of client `k`, by Connect or by the heartbeat's watcher. -/
  | trigger (worker : Option ClientId) (s : Trigger)
  /-- The worker of client `k` leaves `callOnDrop`. -/
  | handled (k : ClientId)
  | connect (s : Connect)
  | handshake (site : Site) (s : Handshake)
  | reconnect (s : Reconnect)
  deriving DecidableEq

/-! ## Steps -/

/-- What a step does to the shared state. -/
inductive Effect
  | none
  | transition (want : SessionState)
  | disconnected (b : Bool)
  /-- `tx.disconnected.Store(false)` after a dial that a Connect or a Reconnect made. -/
  | up
  | connecting (b : Bool)
  /-- `connecting.Store(false)` of a Connect that returns an error. -/
  | giveBack
  | owner (b : Bool)
  /-- `publishWiredClient`. -/
  | publish
  /-- `markDropped` of the current client. -/
  | markDropped
  /-- `markDropped` of client `k` by one of its workers. -/
  | detect (k : ClientId)
  /-- The workers of client `k` have exited. -/
  | stopped (k : ClientId)
  /-- `SetOnDrop` on the current client. -/
  | ondrop (armed : Bool)
  | spawn
  | start
  | handled (k : ClientId)

def Effect.run : Effect → Shared → Shared
  | .none, sh => sh
  | .transition want, sh => { sh with state := sh.state.transitionTo want }
  | .disconnected b, sh => { sh with disconnected := b }
  | .up, sh => { sh with disconnected := false, connectFailed := false }
  | .connecting b, sh => { sh with connecting := b }
  | .giveBack, sh => { sh with connecting := false, connectFailed := true }
  | .owner b, sh => { sh with reconnectOwner := b }
  | .publish, sh => { sh with client := sh.client + 1 }
  | .markDropped, sh =>
    { sh with dropped := if sh.client = 0 then sh.dropped else sh.client :: sh.dropped }
  | .detect k, sh => { sh with dropped := k :: sh.dropped, handlers := k :: sh.handlers }
  | .stopped k, sh => { sh with stopped := k :: sh.stopped }
  | .ondrop armed, sh =>
    { sh with disarmed :=
        if armed then sh.disarmed.filter (· ≠ sh.client) else sh.client :: sh.disarmed }
  | .spawn, sh => { sh with spawned := sh.spawned + 1 }
  | .start, sh => { sh with spawned := sh.spawned - 1 }
  | .handled k, sh => { sh with handlers := sh.handlers.erase k }

inductive Act
  | next
  /-- A dial, a request or a group of requests answers. -/
  | answer (ok : Bool)
  /-- A handshake begins; within one, the probe fails on the transport and the client is redialed. -/
  | again
  /-- The context is done, or the attempts are used up. -/
  | giveUp
  /-- The end of the session cuts a sleep short. -/
  | cut
  /-- A worker of client `k` sees the connection drop. -/
  | drop (k : ClientId)
  /-- The watcher of the heartbeat gives the connection up. -/
  | silence
  | callConnect
  | callReconnect
  | startReconnect
  | close
  deriving DecidableEq

variable (sh : Shared)

/-- `triggerReconnect` of a session with auto-reconnect.  `caller` is where its goroutine goes. -/
def triggerStep (w : Option ClientId) (caller : Pc) : Trigger → Option (Pc × Effect)
  | .isClosed => some (if sh.state = .closed then caller else .trigger w .cas, .none)
  | .cas =>
    if sh.disconnected then some (.trigger w .gate, .none)
    else some (.trigger w .transition, .disconnected true)
  | .transition => some (.trigger w .gate, .transition .disconnected)
  -- Connect owns the transport end to end, and looks at the flag when it is done
  | .gate => some (if sh.connecting then caller else .trigger w .spawn, .none)
  | .spawn => some (caller, .spawn)

def connectStep : Connect → Act → Option (Pc × Effect)
  | .enter, .next =>
    if sh.state.permits .connecting then some (.connect .mark, .transition .connecting)
    else some (.idle, .none)
  | .mark, .next => some (.connect .dial, .connecting true)
  -- the listener, the check of the target and the dial, each of which can fail
  | .dial, .answer true => some (.connect .clear, .publish)
  | .dial, .answer false => some (.connect .rollback, .none)
  | .clear, .next => some (.connect .localMode, .up)
  | .localMode, .answer ok => some (.connect (if ok then .route else .fail false), .none)
  -- the route is skipped, or a handshake region begins
  | .route, .next => some (.connect .version, .none)
  | .route, .again => some (.handshake .ensureRouteOnConnect .disarm, .none)
  | .route, .answer false => some (.connect (.fail false), .none)
  | .tear, .next => some (.connect (.wait sh.client), .markDropped)
  | .wait k, .next => if k ∈ sh.handlers then none else some (.connect .redial, .stopped k)
  | .redial, .answer ok =>
    if ok = true ∧ sh.state ≠ .closed then some (.connect .reclear, .publish)
    else some (.connect .rollback, .none)
  | .reclear, .next => some (.handshake .connectActivation .disarm, .up)
  | .version, .answer ok => some (.connect (if ok then .enterConnected else .fail true), .none)
  | .enterConnected, .next => some (.connect (.unmark true), .transition .connected)
  | .fail v, .next => some (.connect (.failWait sh.client v), .markDropped)
  | .failWait k v, .next =>
    if k ∈ sh.handlers then none
    else some (.connect (if v then .disconnect else .rollback), .stopped k)
  | .disconnect, .next => some (.connect .rollback, .transition .disconnected)
  | .rollback, .next =>
    some (.connect (if sh.state = .connecting then .rollbackTo else .unmark false), .none)
  | .rollbackTo, .next => some (.connect (.unmark false), .transition .disconnected)
  | .unmark true, .next => some (.connect .adopt, .connecting false)
  | .unmark false, .next => some (.idle, .giveBack)
  -- a drop that the gate of triggerReconnect suppressed is Connect's to adopt
  | .adopt, .next =>
    if sh.state ≠ .closed ∧ sh.disconnected = true then some (.trigger none .isClosed, .none)
    else some (.idle, .none)
  | _, _ => none

/-- Where a handshake region returns to.  `known` says that the probe brought the symbol version; a
    region of `ensureRouteOnConnect` has registered a route if it did not. -/
def Site.exit : Site → Bool → Bool → Pc
  | .ensureRouteOnConnect, true, known => .connect (if known then .version else .tear)
  | .connectActivation, true, known => .connect (if known then .enterConnected else .version)
  | .reconnectActivation, true, _ => .reconnect .reload
  | .ensureRouteOnConnect, false, _ | .connectActivation, false, _ => .connect (.fail false)
  | .reconnectActivation, false, _ => .reconnect .reset

def handshakeStep (site : Site) : Handshake → Act → Option (Pc × Effect)
  | .disarm, .next => some (.handshake site .probe, .ondrop false)
  | .probe, .next => some (.handshake site .probe, .none)
  | .probe, .answer ok => some (.handshake site (.rearm ok), .none)
  | .probe, .again => some (.handshake site .mark, .none)
  | .mark, .next => some (.handshake site .tear, .disconnected true)
  | .tear, .next => some (.handshake site (.wait sh.client), .markDropped)
  | .wait k, .next => if k ∈ sh.handlers then none else some (.handshake site .dial, .stopped k)
  | .dial, .answer ok =>
    if ok = true ∧ sh.state ≠ .closed then some (.handshake site .clear, .publish)
    else some (.handshake site (.rearm false), .none)
  | .clear, .next => some (.handshake site .redisarm, .disconnected false)
  | .redisarm, .next => some (.handshake site .probe, .ondrop false)
  | .rearm goesOn, .answer known => some (site.exit goesOn known, .ondrop true)
  | _, _ => none

def reconnectStep : Reconnect → Act → Option (Pc × Effect)
  | .isClosed, .next => some (if sh.state = .closed then .idle else .reconnect .own, .none)
  | .own, .next =>
    if sh.reconnectOwner then some (.idle, .none) else some (.reconnect .enter, .owner true)
  -- a Reconnecting state that nobody owns is taken over
  | .enter, .next =>
    if sh.state.permits .reconnecting ∨ sh.state = .reconnecting then
      some (.reconnect .cooldown, .transition .reconnecting)
    else some (.reconnect .release, .none)
  | .cooldown, .next => some (.reconnect .mark, .none)
  | .cooldown, .giveUp => some (.reconnect .release, .transition .closed)
  | .cooldown, .cut => if sh.state = .closed then some (.reconnect .release, .none) else none
  | .mark, .next => some (.reconnect .tear, .disconnected true)
  | .tear, .next => some (.reconnect (.wait sh.client), .markDropped)
  | .wait k, .next => if k ∈ sh.handlers then none else some (.reconnect .loop, .stopped k)
  | .loop, .next => some (.reconnect (if sh.state = .closed then .release else .dial), .none)
  | .loop, .giveUp => some (.reconnect .release, .transition .closed)
  | .dial, .answer ok =>
    if ok = true ∧ sh.state ≠ .closed then some (.reconnect .clear, .publish)
    else some (.reconnect .sleep, .none)
  | .clear, .next => some (.reconnect .localMode, .up)
  | .localMode, .answer ok => some (.reconnect (if ok then .route else .reset), .none)
  | .route, .answer ok => some (.reconnect (if ok then .reload else .reset), .none)
  | .route, .again => some (.handshake .reconnectActivation .disarm, .none)
  | .reload, .answer ok => some (.reconnect (if ok then .resubscribe else .reset), .none)
  | .resubscribe, .answer ok => some (.reconnect (if ok then .enterConnected else .reset), .none)
  | .enterConnected, .next => some (.reconnect .release, .transition .connected)
  | .reset, .next => some (.reconnect .resetTear, .disconnected true)
  | .resetTear, .next => some (.reconnect (.resetWait sh.client), .markDropped)
  | .resetWait k, .next => if k ∈ sh.handlers then none else some (.reconnect .sleep, .stopped k)
  -- the cooldown for a PLC that serves nothing tears down once more
  | .resetWait k, .again =>
    if k ∈ sh.handlers then none else some (.reconnect .resetTear, .stopped k)
  | .sleep, .next => some (.reconnect .loop, .none)
  | .sleep, .giveUp => some (.reconnect .release, .transition .closed)
  | .sleep, .cut => if sh.state = .closed then some (.reconnect .release, .none) else none
  | .release, .next => some (.reconnect .adopt, .owner false)
  -- whoever releases the ownership adopts a drop that its holder shut out
  | .adopt, .next =>
    if sh.state ≠ .closed ∧ sh.disconnected = true then some (.idle, .spawn)
    else some (.idle, .none)
  | _, _ => none

/-- What an idle goroutine can begin. -/
def idleStep : Act → Option (Pc × Effect)
  | .drop k =>
    -- the workers of a client run from its publication until a teardown has waited for them
    if k ≠ 0 ∧ k ≤ sh.client ∧ k ∉ sh.stopped then some (.onDrop k, .detect k) else none
  | .silence => some (.trigger none .isClosed, .none)
  | .callConnect => some (.connect .enter, .none)
  | .callReconnect => some (.reconnect .isClosed, .none)
  | .startReconnect => if sh.spawned = 0 then none else some (.reconnect .isClosed, .start)
  | .close => some (.idle, .transition .closed)
  | _ => none

def Pc.plan : Pc → Act → Option (Pc × Effect)
  | .idle, a => idleStep sh a
  | .onDrop k, .next =>
    some (if k ∈ sh.disarmed then .handled k else .trigger (some k) .isClosed, .none)
  | .handled k, .next => some (.idle, .handled k)
  | .trigger (some k) s, .next => triggerStep sh (some k) (.handled k) s
  | .trigger none s, .next => triggerStep sh none .idle s
  | .connect s, a => connectStep sh s a
  | .handshake site s, a => handshakeStep sh site s a
  | .reconnect s, a => reconnectStep sh s a
  | _, _ => none

def act (_ : Nat) (pc : Pc) (sh : Shared) (a : Act) : Option (Pc × Shared) :=
  (pc.plan sh a).map fun r => (r.1, r.2.run sh)

abbrev State := Conf Nat Shared Pc

def step : State → Nat × Act → Option State := Conf.exec act

def init : State where
  shared :=
    { state := .constructed, disconnected := false, connecting := false, reconnectOwner := false
      client := 0, dropped := [], disarmed := [], stopped := [], handlers := [], spawned := 0
      connectFailed := false }
  loc _ := .idle

end GoAds.Session
