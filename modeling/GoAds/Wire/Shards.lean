import GoAds.Lib.Interleaving
import GoAds.Wire.Frames
import GoAds.Wire.Samples

/-!
# `Wire.Shards` — `notifWorker`

One splitter decodes the notification frames in the order of `notifQueue` and hands each sample to the
shard of its handle; eight shards pass their samples to the notification handler, each in its own
goroutine.  Splitter and shards take their steps in any order.  Until the client's context ends nothing is
lost, and the samples of one handle stay in order, since they all go through the same shard.
-/

namespace GoAds.Wire.Shards

open Interleaving Function List
open Function (update)

def notifShardCount : Nat := 8

def notifShardQueue : Nat := 4096

/-- The shard of a handle. -/
def shardOf (handle : UInt32) : Nat := handle.toNat % notifShardCount

/-- The samples that the splitter decodes from a frame. -/
def samplesOf (data : Bytes) : List NotifSample :=
  if data.length < 32 ∨
      (FixedSize.uint32.get ((data.drop 20).take 4)).toNat ≠ data.length - 32 then []
  else (decodeNotification (data.drop 32)).1

structure State where
  notifQueue : List Bytes
  /-- The samples of the frame in the splitter's hands that it has not handed on. -/
  routing : List NotifSample
  shards : Nat → List NotifSample
  /-- `c.ctx` has ended. -/
  cancelled : Bool
  /-- The splitter has returned. -/
  exited : Bool
  /-- History: the frames that were put into `notifQueue`. -/
  accepted : List Bytes
  /-- History: the samples passed to the handler, oldest first. -/
  handled : List NotifSample

def init : State := ⟨[], [], fun _ => [], false, false, [], []⟩

inductive Act
  /-- `readFrames` puts a frame into the queue. -/
  | accept (data : Bytes)
  /-- The splitter takes a frame. -/
  | decode
  /-- The splitter hands a sample on. -/
  | route
  /-- The shard passes a sample to the handler. -/
  | dispatch (i : Nat)
  | cancel
  /-- The splitter's `select` takes `c.ctx.Done()`, over a sample or over the queue. -/
  | abandon
  | exit

def step (s : State) : Act → Option State
  | .accept data =>
    if s.notifQueue.length < Queue.notif.capacity then
      some { s with notifQueue := s.notifQueue ++ [data], accepted := s.accepted ++ [data] }
    else none
  | .decode =>
    match s.exited, s.routing, s.notifQueue with
    | false, [], data :: rest => some { s with notifQueue := rest, routing := samplesOf data }
    | _, _, _ => none
  | .route =>
    match s.routing with
    | [] => none
    | x :: rest =>
      let i := shardOf x.handle
      if (s.shards i).length < notifShardQueue then
        some { s with routing := rest, shards := update s.shards i (s.shards i ++ [x]) }
      else none
  | .dispatch i =>
    match s.shards i with
    | [] => none
    | x :: rest =>
      some { s with shards := update s.shards i rest, handled := s.handled ++ [x] }
  | .cancel => some { s with cancelled := true }
  | .abandon =>
    match s.cancelled, s.routing with
    | true, _ :: rest => some { s with routing := rest }
    | _, _ => none
  | .exit =>
    match s.cancelled, s.routing with
    | true, [] => some { s with exited := true }
    | _, _ => none

/-- The samples of a handle. -/
def ofHandle (handle : UInt32) (xs : List NotifSample) : List NotifSample :=
  xs.filter fun x => x.handle == handle

@[simp] theorem ofHandle_append (handle : UInt32) (xs ys : List NotifSample) :
    ofHandle handle (xs ++ ys) = ofHandle handle xs ++ ofHandle handle ys := filter_append ..

variable {handle : UInt32}

theorem ofHandle_eq_nil {xs} (h : ∀ x ∈ xs, x.handle ≠ handle) :
    ofHandle handle xs = [] := by
  apply filter_eq_nil_iff.2
  intro x hx
  simpa using h x hx

/-- **Where the samples of every handle are**: handled, in its shard, in the splitter, or in the queue;
    in this order they are all that were decoded. -/
structure Ordered (s : State) : Prop where
  shard : ∀ i, ∀ x ∈ s.shards i, shardOf x.handle = i
  samples : s.cancelled = false → ∀ handle,
    ofHandle handle (s.accepted.flatMap samplesOf) =
      ofHandle handle (s.handled ++ (s.shards (shardOf handle) ++
        (s.routing ++ s.notifQueue.flatMap samplesOf)))

theorem Ordered.init : Ordered init where
  shard _ _ hx := absurd hx not_mem_nil
  samples _ _ := rfl

/-- A sample in another shard is of another handle. -/
theorem ofHandle_singleton_of_ne {x}
    (h : shardOf handle ≠ shardOf x.handle) : ofHandle handle [x] = [] := by
  apply ofHandle_eq_nil
  intro y hy heq
  rw [mem_singleton.1 hy] at heq
  exact h (by rw [heq])

section Steps

variable {s s' : State}

variable {rest : List NotifSample} {x : NotifSample}

theorem Ordered.route (h : Ordered s) (hrouting : s.routing = x :: rest) : Ordered { s with
      routing := rest
      shards := update s.shards (shardOf x.handle) (s.shards (shardOf x.handle) ++ [x]) } := by
  constructor
  · intro i y hy
    change y ∈ update s.shards (shardOf x.handle) _ i at hy
    by_cases hi : i = shardOf x.handle
    · subst hi
      rw [update_self] at hy
      rcases mem_append.1 hy with hy | hy
      · exact h.shard _ y hy
      · rw [mem_singleton.1 hy]
    · rw [update_of_ne hi] at hy
      exact h.shard i y hy
  · intro hc handle
    rw [h.samples hc handle, hrouting, ← singleton_append (l := rest)]
    dsimp only
    by_cases hi : shardOf handle = shardOf x.handle
    · rw [hi, update_self]
      simp only [ofHandle_append, append_assoc]
    · rw [update_of_ne hi]
      simp only [ofHandle_append, ofHandle_singleton_of_ne hi, nil_append]

theorem Ordered.dispatch (h : Ordered s) {i} (hshard : s.shards i = x :: rest) :
    Ordered { s with shards := update s.shards i rest, handled := s.handled ++ [x] } := by
  have hx : shardOf x.handle = i := h.shard i x (hshard ▸ mem_cons_self)
  constructor
  · intro j y hy
    change y ∈ update s.shards i rest j at hy
    by_cases hj : j = i
    · subst hj
      rw [update_self] at hy
      exact h.shard j y (hshard ▸ mem_cons_of_mem x hy)
    · rw [update_of_ne hj] at hy
      exact h.shard j y hy
  intro hc handle
  rw [h.samples hc handle]
  dsimp only
  by_cases hi : shardOf handle = i
  · rw [hi, update_self, hshard, ← singleton_append (l := rest)]
    simp only [append_assoc]
  rw [← hx] at hi
  rw [← hx, update_of_ne hi]
  simp only [ofHandle_append, ofHandle_singleton_of_ne hi, append_nil]

theorem Ordered.step {a} (h : Ordered s) (hs : step s a = some s') : Ordered s' := by
  cases a with
  | accept data =>
    simp only [Shards.step] at hs
    split at hs
    · cases hs
      refine ⟨h.shard, fun hc handle => ?_⟩
      simp only [flatMap_append, ofHandle_append, h.samples hc handle, append_assoc]
    · cases hs
  | decode =>
    simp only [Shards.step] at hs
    split at hs
    · next data rest hexited hrouting hqueue =>
      cases hs
      refine ⟨h.shard, fun hc handle => ?_⟩
      rw [h.samples hc handle, hrouting, hqueue, flatMap_cons, nil_append]
    · cases hs
  | route =>
    simp only [Shards.step] at hs
    split at hs
    · cases hs
    next x rest hrouting =>
    split at hs
    · cases hs
      exact h.route hrouting
    · cases hs
  | dispatch i =>
    simp only [Shards.step] at hs
    split at hs
    · cases hs
    next x rest hshard =>
    cases hs
    exact h.dispatch hshard
  | cancel =>
    cases hs
    exact ⟨h.shard, fun hc => by cases hc⟩
  | abandon =>
    simp only [Shards.step] at hs
    split at hs
    · next x rest hcancelled hrouting =>
      cases hs
      exact ⟨h.shard, fun hc => by rw [hcancelled] at hc; cases hc⟩
    · cases hs
  | exit =>
    simp only [Shards.step] at hs
    split at hs
    · cases hs
      exact ⟨h.shard, h.samples⟩
    · cases hs

end Steps

end GoAds.Wire.Shards
