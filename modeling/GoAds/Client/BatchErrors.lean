import GoAds.Client.Complete
import GoAds.Client.Honest

/-!
# `Client.BatchErrors` — when every item's outcome is known

A `BatchError` leaves the map of a batch read or write usable: every item in it either was never sent or
has the PLC's own code.  That rests on the sum command being honest.
-/

namespace GoAds.Client

open List

variable {Name Value Req Res Out : Type}

/-! ## What the loops name -/

variable {item : BatchItemError Name} {failed : List (BatchItemError Name)} {infos : List (Name × Req)}
  {codes : List ReturnCode}

theorem resolveNames_skipped {Entry : Type} {name : Entry → Name}
    {resolve : Entry → Except BatchSkip Req} {entries}
    (h : item ∈ (resolveNames name resolve entries).2) : item.skipped ≠ none := by
  induction entries with
  | nil => cases h
  | cons x xs ih =>
    rw [resolveNames] at h
    split at h
    · rcases mem_cons.1 h with rfl | h
      · exact Option.some_ne_none _
      · exact ih h
    · exact ih h

/-- What a loop adds to the failures: skipped items, and items with their code. -/
def Adds (infos : List (Name × Req)) (codes : List ReturnCode)
    (failed failed' : List (BatchItemError Name)) : Prop :=
  ∀ item ∈ failed', item ∈ failed ∨ item.skipped ≠ none ∨ Coded infos codes item

variable {own : Name → Res → Out → Prop}

theorem Settles.adds [DecidableEq Name] {code : Res → ReturnCode}
    {good : Out → Prop} {rs m m' done added items} (hs : Settles code own good infos rs m m' done added)
    (hitems : items.Perm (failed ++ added)) : Adds infos (rs.map code) failed items := by
  intro item hitem
  exact (mem_append.1 (hitems.mem_iff.1 hitem)).imp_right (hs.coded item)

/-! ## Known outcomes -/

/-- Every exchange of the call was answered by the PLC, and each item that was not skipped has its code
    from one of them. -/
def Known (call : SumCall) (infos : List (Name × Req)) (exchanges : List Exchange)
    (items : List (BatchItemError Name)) : Prop :=
  (∀ x ∈ exchanges, x.verdict ≠ none) ∧
    ∀ item ∈ items, item.skipped = none →
      ∃ (i : Nat) (info : Name × Req), infos[i]? = some info ∧ info.1 = item.symbol ∧
        call.Verdict exchanges i item.error

theorem Known.unsent {call exchanges items} (hnone : exchanges = [])
    (hitems : ∀ item ∈ items, item.skipped ≠ none) : Known call infos exchanges items := by
  subst hnone
  exact ⟨fun x hx => absurd hx not_mem_nil, fun item hmem h => absurd h (hitems item hmem)⟩

/-- **A call without an error whose fallback was answered**, none of whose items it skipped, leaves
    nothing unknown. -/
theorem Known.of_answered {call net c items}
    (hanswered : call.FallbackAnswered (exchangesSince c (call.run net c).2))
    (herr : (call.run net c).1.err = none)
    (hskipped : ∀ item ∈ (call.run net c).1.results, item.skipped = false)
    (hfailed : ∀ item ∈ failed, item.skipped ≠ none)
    (hadds : Adds infos ((call.run net c).1.results.map (·.code)) failed items) :
    Known call infos (exchangesSince c (call.run net c).2) items := by
  have hhonest := (call.honest_iff net c).2 hanswered
  constructor
  · intro x hx hnone
    -- an unanswered exchange would show as the call's error or a skipped item, and there is neither
    rcases hhonest.reported ⟨x, hx, hnone⟩ with h | ⟨item, hitem, h⟩
    · exact h herr
    · rw [hskipped item hitem] at h
      cases h
  intro item hitem hskip
  rcases hadds item hitem with hold | h | ⟨i, info, hi, hname, hcode, hne⟩
  · exact absurd hskip (hfailed item hold)
  · exact absurd hskip h
  -- a code of the call, which is honest about it
  · rw [getElem?_map, Option.map_eq_some_iff] at hcode
    obtain ⟨it, hit, hitcode⟩ := hcode
    refine ⟨i, info, hi, hname, ?_⟩
    rw [← hitcode] at hne ⊢
    exact hhonest.verdicts i it hit hne

/-- What a call leaves unknown does not depend on how many of its items could be sent. -/
theorem Known.of_settles [DecidableEq Name] {call net c} {code : Res → ReturnCode} {good : Out → Prop}
    {rs m m' done added items} (hs : Settles code own good infos rs m m' done added)
    (hfailed : ∀ item ∈ failed, item.skipped ≠ none)
    (hitems : items.Perm (failed ++ added)) (hunsent : infos = [] → (call.run net c).2 = c)
    (hsent : infos ≠ [] → (call.run net c).1 = ⟨rs.map fun r => { code := code r }, none⟩)
    (hanswered : call.FallbackAnswered (exchangesSince c (call.run net c).2)) :
    Known call infos (exchangesSince c (call.run net c).2) items := by
  have hadds := hs.adds hitems
  by_cases hnil : infos = []
  · have hnone : exchangesSince c (call.run net c).2 = [] := by
      rw [hunsent hnil]
      exact drop_length
    refine Known.unsent hnone fun item hitem => ?_
    rcases hadds item hitem with hold | hskip | ⟨i, info, hi, -⟩
    · exact hfailed item hold
    · exact hskip
    · rw [hnil] at hi
      cases hi
  · have hrun := hsent hnil
    refine Known.of_answered hanswered (by rw [hrun]) ?_ hfailed ?_
    · rw [hrun]
      intro item hitem
      obtain ⟨r, -, rfl⟩ := mem_map.1 hitem
      rfl
    · rw [hrun, map_map]
      exact hadds

section

variable [DecidableEq Name]

/-- The sum command of an attempt. -/
def ReadSession.call (sess : ReadSession Name Value) (k : Nat) (names : List Name) : SumCall :=
  .read ((sess.resolve k names).1.map (·.2))

/-- What an attempt exchanges in its sum command. -/
def ReadSession.exchanges (sess : ReadSession Name Value) (k : Nat) (names : List Name) : List Exchange :=
  exchangesSince (sess.conn k) ((sess.call k names).run (sess.net k) (sess.conn k)).2

def WriteSession.call (sess : WriteSession Name Value) (k : Nat) (values : List (Name × Value)) : SumCall :=
  .write ((sess.resolve k values).1.map (·.2))

def WriteSession.exchanges (sess : WriteSession Name Value) (k : Nat) (values : List (Name × Value)) :
    List Exchange :=
  exchangesSince (sess.conn k) ((sess.call k values).run (sess.net k) (sess.conn k)).2

theorem ReadSession.known {sess : ReadSession Name Value} {k : Nat} {names : List Name}
    {m : AList (fun _ : Name => Value)} {e : BatchError Name}
    (h : sess.attempt k names = .ok (m, some (.batch e)))
    (hfallback : (sess.call k names).FallbackAnswered (sess.exchanges k names)) :
    Known (sess.call k names) (sess.resolve k names).1 (sess.exchanges k names) e.items := by
  obtain ⟨rs, hout, hanswered⟩ := ReadSession.attempt_ok h
  obtain ⟨done, added, hadded, hs⟩ :=
    readLoop_settles (sess.live k) (sess.resolve k names).1 rs ∅ (sess.resolve k names).2
  have hitems := newBatchError_items (congrArg Prod.snd hout).symm
  refine Known.of_settles hs (fun item => resolveNames_skipped) (.of_eq (hitems.trans hadded)) (fun hnil => ?_)
    (fun hne => ?_) hfallback
  · rw [ReadSession.call, hnil]
    rfl
  show Outcome.items _ (sumRead _ _ _).1 = _
  rw [hanswered hne]
  rfl

theorem WriteSession.known {sess : WriteSession Name Value} {k : Nat} {values : List (Name × Value)}
    {m : AList (fun _ : Name => ReturnCode)} {e : BatchError Name}
    (h : sess.attempt k values = .ok (m, some (.batch e)))
    (hfallback : (sess.call k values).FallbackAnswered (sess.exchanges k values)) :
    Known (sess.call k values) (sess.resolve k values).1 (sess.exchanges k values) e.items := by
  obtain ⟨rs, hout, hanswered⟩ := WriteSession.attempt_ok h
  obtain ⟨done, added, hadded, -, hs⟩ :=
    writeLoop_settles (sess.resolve k values).1 rs ∅ 0 (sess.resolve k values).2
  have hitems : e.items.Perm ((sess.resolve k values).2 ++ added) := by
    rw [newBatchError_items (congrArg Prod.snd hout).symm, ← hadded]
    exact mergeSort_perm _ _
  refine Known.of_settles hs (fun item => resolveNames_skipped) hitems (fun hnil => ?_)
    (fun hne => ?_) hfallback
  · rw [WriteSession.call, hnil]
    rfl
  show Outcome.items _ (sumWrite _ _ _).1 = _
  rw [hanswered hne]
  rfl

/-- **Codes are verdicts.**  A sum command is honest exactly if the PLC answers every individual read and
    write of its fallback; and a batch read or write whose sum command is answered so returns a
    `BatchError` only when every item's outcome is known. -/
theorem codes_are_verdicts : (∀ (call : SumCall) (net : Net) (c : Conn),
      call.Honest (exchangesSince c (call.run net c).2) (call.run net c).1 ↔
        call.FallbackAnswered (exchangesSince c (call.run net c).2)) ∧
      (∀ (sess : ReadSession Name Value) (names : List Name) (e : BatchError Name),
        (sess.readMultipleSymbols names).2 = some (.batch e) →
        ∃ k ≤ 1, (∃ m, sess.attempt k names = .ok (m, some (.batch e))) ∧
          ((sess.call k names).FallbackAnswered (sess.exchanges k names) →
            Known (sess.call k names) (sess.resolve k names).1 (sess.exchanges k names) e.items)) ∧
      (∀ (sess : WriteSession Name Value) (values : List (Name × Value)) (e : BatchError Name),
        (sess.writeMultipleSymbols values).2 = some (.batch e) →
        ∃ k ≤ 1, (∃ m, sess.attempt k values = .ok (m, some (.batch e))) ∧
          ((sess.call k values).FallbackAnswered (sess.exchanges k values) →
            Known (sess.call k values) (sess.resolve k values).1 (sess.exchanges k values)
              e.items)) := by
  refine ⟨SumCall.honest_iff, ?_, ?_⟩
  · intro sess names e h
    unfold ReadSession.readMultipleSymbols ReadSession.readMultipleSymbolsRetry at h
    split at h
    · cases h
    obtain ⟨k, hk, hm⟩ := retry_returned fun e' he' => nomatch h.symm.trans he'
    rw [← Prod.eta (retry _ _ _ _), h] at hm
    exact ⟨k, hk, ⟨_, hm⟩, ReadSession.known hm⟩
  intro sess values e h
  unfold WriteSession.writeMultipleSymbols WriteSession.writeMultipleSymbolsRetry at h
  split at h
  · cases h
  obtain ⟨k, hk, hm⟩ := retry_returned fun e' he' => nomatch h.symm.trans he'
  rw [← Prod.eta (retry _ _ _ _), h] at hm
  exact ⟨k, hk, ⟨_, hm⟩, WriteSession.known hm⟩

end

namespace Example

/-- A connection on which no sum command is supported. -/
def plain : Conn := { capabilities := { sumReadCmd := 1, sumWriteState := 2 } }

def accepts : Net := fun _ _ => .reply 0 [0, 0, 0, 0]

def closed : Net := fun _ _ => .lost .transportClosed

/-- A session on a connection that is gone, in which every name has an address. -/
def cut : ReadSession String String :=
  { net := fun _ => closed, conn := fun _ => plain, getSymbol := fun _ _ => .ok ⟨0xF005, 1, 2⟩
    epochChanged := fun _ => false, live := fun _ _ => none }

end Example

open Example in
/-- Two writes, one by one, both answered. -/
theorem codes_are_verdicts_writes : (SumCall.write [⟨0xF005, 1, [1]⟩, ⟨0xF005, 2, [2]⟩]).Honest
      (exchangesSince plain
        ((SumCall.write [⟨0xF005, 1, [1]⟩, ⟨0xF005, 2, [2]⟩]).run accepts plain).2)
      ((SumCall.write [⟨0xF005, 1, [1]⟩, ⟨0xF005, 2, [2]⟩]).run accepts plain).1 := by
  refine ((@codes_are_verdicts String String _).1 _ accepts plain).2 ?_
  show ∀ x ∈ exchangesSince plain ((SumCall.write [⟨0xF005, 1, [1]⟩, ⟨0xF005, 2, [2]⟩]).run accepts plain).2,
    x.isSum = false → x.verdict ≠ none
  decide +kernel

open Example in
/-- A read that is never answered comes back with `DeviceError` and no error of the call, and
    `ReadMultipleSymbols` returns a `BatchError` for it. -/
theorem codes_nobody_said : (¬ ∀ (call : SumCall) (net : Net) (c : Conn),
        call.Honest (exchangesSince c (call.run net c).2) (call.run net c).1) ∧
      ¬ ∀ (sess : ReadSession String String) (names : List String) (e : BatchError String),
        (sess.readMultipleSymbols names).2 = some (.batch e) →
        ∃ k ≤ 1, Known (sess.call k names) (sess.resolve k names).1 (sess.exchanges k names)
          e.items := by
  constructor
  · intro hall
    have hanswered := (SumCall.honest_iff (.read [⟨0xF005, 1, 2⟩]) closed plain).1 (hall _ _ _)
    exact absurd rfl (hanswered ⟨.read 0xF005 1 2, .lost .transportClosed⟩ (by decide) rfl)
  intro hall
  obtain ⟨k, -, hknown, -⟩ := hall cut ["MAIN.a"]
    ⟨"read", 1, 0, [{ symbol := "MAIN.a", error := ReturnCode.deviceError }]⟩ (by decide +kernel)
  exact absurd rfl (hknown ⟨.read 0xF005 1 2, .lost .transportClosed⟩ (mem_singleton_self _))

end GoAds.Client
