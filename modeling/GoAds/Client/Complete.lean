import Mathlib.Data.List.AList
import GoAds.Client.Batch

/-!
# `Client.Complete` — no item of a batch disappears

Between the names asked for and what a batch returns, an item can drop out at six points of two loops.
Both loops are followed with a history variable, the names that got a good result: these names and those of
the failed items are a permutation of the names asked for, whatever the sum command answered.  The map holds
what belongs to a result at the item's own position.
-/

namespace GoAds.Client

open List
open ReturnCode (noErrors)

variable {Name Value Req Res Out : Type}

/-! ## The names -/

section Names

variable {Entry : Type} {name : Entry → Name} {resolve : Entry → Except BatchSkip Req} {entries : List Entry}

variable (name resolve entries) in
theorem resolveNames_perm : (entries.map name).Perm ((resolveNames name resolve entries).1.map Prod.fst ++
      (resolveNames name resolve entries).2.map (·.symbol)) := by
  induction entries with
  | nil => exact .refl _
  | cons x xs ih =>
    rw [resolveNames]
    split
    · exact (ih.cons _).trans perm_middle.symm
    · exact ih.cons _

theorem exists_of_mem_resolveNames {n req} (h : (n, req) ∈ (resolveNames name resolve entries).1) :
    ∃ x ∈ entries, name x = n ∧ resolve x = .ok req := by
  induction entries with
  | nil => cases h
  | cons x xs ih =>
    rw [resolveNames] at h
    split at h
    · obtain ⟨y, hy, hrest⟩ := ih h
      exact ⟨y, mem_cons_of_mem _ hy, hrest⟩
    next q hq =>
    rcases mem_cons.1 h with heq | h
    · cases heq
      exact ⟨x, mem_cons_self .., rfl, hq⟩
    · obtain ⟨y, hy, hrest⟩ := ih h
      exact ⟨y, mem_cons_of_mem _ hy, hrest⟩

end Names

/-! ## The loops -/

theorem noResults_skipped {infos : List (Name × Req)} {item : BatchItemError Name}
    (h : item ∈ noResults infos) : item.skipped ≠ none := by
  obtain ⟨info, -, rfl⟩ := mem_map.1 h
  exact Option.some_ne_none _

/-- The item is one of the requests, with the code of its result. -/
def Coded (infos : List (Name × Req)) (codes : List ReturnCode) (item : BatchItemError Name) : Prop :=
  ∃ (i : Nat) (info : Name × Req), infos[i]? = some info ∧ info.1 = item.symbol ∧ codes[i]? = some item.error ∧
    item.error ≠ noErrors

variable [DecidableEq Name]

/-- What a loop has made of the requests `infos` and the results `rs`: the map was `m` and is `m'`, the names
    in `done` got a good result, and the failures in `added` were appended, skipped or with their code. -/
structure Settles (code : Res → ReturnCode) (own : Name → Res → Out → Prop) (good : Out → Prop)
    (infos : List (Name × Req)) (rs : List Res) (m m' : AList (fun _ : Name => Out)) (done : List Name)
    (added : List (BatchItemError Name)) : Prop where
  names : (infos.map Prod.fst).Perm (done ++ added.map (·.symbol))
  kept : ∀ name ∉ infos.map Prod.fst, m'.lookup name = m.lookup name
  owned : ∀ name out, m'.lookup name = some out → m.lookup name = some out ∨
    ∃ (i : Nat) (req : Req) (r : Res), infos[i]? = some (name, req) ∧ rs[i]? = some r ∧ own name r out
  recorded : ∀ name out, m'.lookup name = some out → good out → m.lookup name = some out ∨ name ∈ done
  finished : ∀ name ∈ done, (∃ out, m'.lookup name = some out ∧ good out) ∨ name ∈ added.map (·.symbol)
  coded : ∀ item ∈ added, item.skipped ≠ none ∨ Coded infos (rs.map code) item

section Loops

variable {code : Res → ReturnCode} {own : Name → Res → Out → Prop} {good : Out → Prop}
  {infos : List (Name × Req)} {rs : List Res} {m m₁ m' : AList (fun _ : Name => Out)}
  {done : List Name} {added : List (BatchItemError Name)} {info : Name × Req} {r : Res} {out : Out}

theorem Settles.nil : Settles code own good ([] : List (Name × Req)) rs m m [] [] :=
  ⟨.refl _, fun _ _ => rfl, fun _ _ h => .inl h, fun _ _ h _ => .inl h, fun _ h => absurd h not_mem_nil,
    fun _ h => absurd h not_mem_nil⟩

theorem Settles.noResults (infos : List (Name × Req)) :
    Settles code own good infos [] m m [] (noResults infos) := by
  refine ⟨?_, fun _ _ => rfl, fun _ _ h => .inl h, fun _ _ h _ => .inl h, fun _ h => absurd h not_mem_nil,
    fun _ h => .inl (noResults_skipped h)⟩
  rw [Client.noResults, map_map]
  exact .refl _

theorem Settles.owned_cons (h : Settles code own good infos rs m₁ m' done added)
    (hm : ∀ name out, m₁.lookup name = some out → m.lookup name = some out ∨ name = info.1 ∧ own name r out)
    {name} (hout : m'.lookup name = some out) :
    m.lookup name = some out ∨ ∃ (i : Nat) (req : Req) (r' : Res), (info :: infos)[i]? = some (name, req) ∧
      (r :: rs)[i]? = some r' ∧ own name r' out := by
  rcases h.owned name out hout with hold | ⟨i, req, r', hi, hr, hown⟩
  · rcases hm name out hold with hold | ⟨rfl, hown⟩
    · exact .inl hold
    · exact .inr ⟨0, info.2, r, rfl, rfl, hown⟩
  · exact .inr ⟨i + 1, req, r', hi, hr, hown⟩

theorem Settles.coded_cons (h : Settles code own good infos rs m m' done added) {item}
    (hitem : item ∈ added) : item.skipped ≠ none ∨ Coded (info :: infos) ((r :: rs).map code) item := by
  refine (h.coded item hitem).imp_right ?_
  rintro ⟨i, info', hi, hname, hcode, hne⟩
  exact ⟨i + 1, info', hi, hname, hcode, hne⟩

/-- The first item fails; what is stored for it, if anything, is not good. -/
theorem Settles.failed (h : Settles code own good infos rs m₁ m' done added) {item}
    (hitem : item.symbol = info.1)
    (hcode : item.skipped ≠ none ∨ item.error = code r ∧ code r ≠ noErrors)
    (hne : ∀ name, name ≠ info.1 → m₁.lookup name = m.lookup name)
    (hm : ∀ name out, m₁.lookup name = some out →
      m.lookup name = some out ∨ name = info.1 ∧ own name r out ∧ ¬ good out) :
    Settles code own good (info :: infos) (r :: rs) m m' done (item :: added) := by
  refine ⟨?_, fun name hname => ?_, fun name out => ?_, fun name out hout hgood => ?_, fun name hname => ?_,
    fun item' hmem => ?_⟩
  · rw [map_cons, map_cons, hitem]
    exact (h.names.cons info.1).trans perm_middle.symm
  · rw [map_cons, mem_cons, not_or] at hname
    rw [h.kept name hname.2, hne name hname.1]
  · exact h.owned_cons fun name out hout => (hm name out hout).imp_right fun hnew => ⟨hnew.1, hnew.2.1⟩
  · rcases h.recorded name out hout hgood with hold | hdone
    · rcases hm name out hold with hold | ⟨-, -, hbad⟩
      · exact .inl hold
      · exact absurd hgood hbad
    · exact .inr hdone
  · exact (h.finished name hname).imp_right (mem_cons_of_mem _)
  rcases mem_cons.1 hmem with rfl | hmem
  · refine hcode.imp_right fun ⟨herror, hbad⟩ => ⟨0, info, rfl, hitem.symm, ?_, herror ▸ hbad⟩
    rw [herror]
    rfl
  · exact h.coded_cons hmem

theorem Settles.skipped (h : Settles code own good infos rs m m' done added) {item}
    (hitem : item.symbol = info.1)
    (hcode : item.skipped ≠ none ∨ item.error = code r ∧ code r ≠ noErrors) :
    Settles code own good (info :: infos) (r :: rs) m m' done (item :: added) :=
  h.failed hitem hcode (fun _ _ => rfl) fun _ _ hout => .inl hout

theorem lookup_insert_cases {name name' x} (h : (m.insert name out).lookup name' = some x) :
    m.lookup name' = some x ∨ name' = name ∧ x = out := by
  by_cases heq : name' = name
  · subst heq
    rw [AList.lookup_insert] at h
    exact .inr ⟨rfl, (Option.some.inj h).symm⟩
  · rw [AList.lookup_insert_ne heq] at h
    exact .inl h

theorem Settles.stored (h : Settles code own good infos rs (m.insert info.1 out) m' done added)
    (hown : own info.1 r out) (hgood : good out) :
    Settles code own good (info :: infos) (r :: rs) m m' (info.1 :: done) added := by
  refine ⟨h.names.cons info.1, fun name hname => ?_, fun name x => ?_, fun name x hx hxgood => ?_,
    fun name hname => ?_, fun item => h.coded_cons⟩
  · rw [map_cons, mem_cons, not_or] at hname
    rw [h.kept name hname.2, AList.lookup_insert_ne hname.1]
  · refine h.owned_cons fun name x hx => (lookup_insert_cases hx).imp_right ?_
    rintro ⟨rfl, rfl⟩
    exact ⟨rfl, hown⟩
  · rcases h.recorded name x hx hxgood with hold | hdone
    · rcases lookup_insert_cases hold with hold | ⟨rfl, -⟩
      · exact .inl hold
      · exact .inr (mem_cons_self ..)
    · exact .inr (mem_cons_of_mem _ hdone)
  by_cases hlater : name ∈ infos.map Prod.fst
  · -- the name is asked for again: the later result decides
    rcases mem_append.1 (h.names.mem_iff.1 hlater) with hdone | hadded
    · exact h.finished name hdone
    · exact .inr hadded
  rcases mem_cons.1 hname with rfl | hname
  · refine .inl ⟨out, ?_, hgood⟩
    rw [h.kept _ hlater, AList.lookup_insert]
  · exact h.finished name hname

end Loops

/-- The value is what the live entry of the name decodes from the result. -/
def ReadAs (live : Name → Option (Bytes → Except Err Value)) (name : Name) (r : SumReadResult) (value : Value) :
    Prop :=
  r.error = noErrors ∧ ∃ parse, live name = some parse ∧ parse r.data = .ok value

theorem readLoop_settles (live : Name → Option (Bytes → Except Err Value))
    (infos : List (Name × SumReadRequest)) (rs : List SumReadResult)
    (values : AList (fun _ : Name => Value)) (failed : List (BatchItemError Name)) :
    ∃ done added, (readLoop live infos rs values failed).2 = failed ++ added ∧
      Settles (·.error) (ReadAs live) (fun _ => True) infos rs values
        (readLoop live infos rs values failed).1 done added := by
  induction infos generalizing rs values failed with
  | nil =>
    rw [readLoop]
    exact ⟨[], [], (append_nil _).symm, .nil⟩
  | cons info infos ih =>
    -- the rest of the loop, after an item that fails
    have hfailed : ∀ (r : SumReadResult) (rs : List SumReadResult) (item : BatchItemError Name),
        item.symbol = info.1 → (item.skipped ≠ none ∨ item.error = r.error ∧ r.error ≠ noErrors) →
        ∃ done added,
          (readLoop live infos rs values (failed ++ [item])).2 = failed ++ added ∧
            Settles (·.error) (ReadAs live) (fun _ => True) (info :: infos) (r :: rs) values
              (readLoop live infos rs values (failed ++ [item])).1 done added := by
      intro r rs item hitem hcode
      obtain ⟨done, added, heq, hs⟩ := ih rs values (failed ++ [item])
      rw [append_assoc] at heq
      exact ⟨done, item :: added, heq, hs.skipped hitem hcode⟩
    cases rs with
    | nil =>
      rw [readLoop]
      exact ⟨[], _, rfl, .noResults (info :: infos)⟩
    | cons r rs =>
      rw [readLoop]
      split
      · next hne => exact hfailed r rs _ rfl (.inr ⟨rfl, hne⟩)
      next hok =>
      split
      · exact hfailed r rs _ rfl (.inl (Option.some_ne_none _))
      next parse hlive =>
      split
      · exact hfailed r rs _ rfl (.inl (Option.some_ne_none _))
      next value hparse =>
      obtain ⟨done, added, heq, hs⟩ := ih rs (values.insert info.1 value) failed
      exact ⟨info.1 :: done, added, heq, hs.stored ⟨not_not.1 hok, parse, hlive, hparse⟩ trivial⟩

theorem writeLoop_settles (infos : List (Name × SumWriteRequest)) (rs : List SumWriteResult)
    (codes : AList (fun _ : Name => ReturnCode)) (succeeded : Nat) (failed : List (BatchItemError Name)) :
    ∃ done added, (writeLoop infos rs codes succeeded failed).2.2 = failed ++ added ∧
      (writeLoop infos rs codes succeeded failed).2.1 = succeeded + done.length ∧
      Settles (·.error) (fun _ (r : SumWriteResult) code => code = r.error) (· = noErrors) infos rs codes
        (writeLoop infos rs codes succeeded failed).1 done added := by
  induction infos generalizing rs codes succeeded failed with
  | nil =>
    rw [writeLoop]
    exact ⟨[], [], (append_nil _).symm, rfl, .nil⟩
  | cons info infos ih =>
    cases rs with
    | nil =>
      rw [writeLoop]
      exact ⟨[], _, rfl, rfl, .noResults (info :: infos)⟩
    | cons r rs =>
      rw [writeLoop]
      split
      · next hok =>
        obtain ⟨done, added, heq, hlen, hs⟩ := ih rs (codes.insert info.1 r.error) (succeeded + 1) failed
        refine ⟨info.1 :: done, added, heq, ?_, hs.stored rfl hok⟩
        rw [hlen, length_cons]
        omega
      next hbad =>
      obtain ⟨done, added, heq, hlen, hs⟩ := ih rs (codes.insert info.1 r.error) succeeded
        (failed ++ [{ symbol := info.1, error := r.error }])
      rw [append_assoc] at heq
      refine ⟨done, _ :: added, heq, hlen,
        hs.failed rfl (.inr ⟨rfl, hbad⟩) (fun name hne => AList.lookup_insert_ne hne) ?_⟩
      intro name code hcode
      refine (lookup_insert_cases hcode).imp_right ?_
      rintro ⟨rfl, rfl⟩
      exact ⟨rfl, rfl, hbad⟩

/-! ## What is returned -/

/-- The items that an error names. -/
def namedItems : Option (BatchFailure Name) → List (BatchItemError Name)
  | some (.batch e) => e.items
  | _ => []

/-- No name is missing from what a batch returned: it is successful or an item of the error, and with
    distinct names it is one of the two and the counts add up. -/
structure Complete (names : List Name) (good : Out → Prop) (m : AList (fun _ : Name => Out))
    (err : Option (BatchFailure Name)) : Prop where
  covered : ∀ name ∈ names, (∃ out, m.lookup name = some out ∧ good out) ∨
    ∃ item ∈ namedItems err, item.symbol = name
  apart : names.Nodup → ∀ name out, m.lookup name = some out → good out →
    ∀ item ∈ namedItems err, item.symbol ≠ name
  counted : names.Nodup → ∀ e, err = some (.batch e) →
    e.requested = names.length ∧ e.requested = e.succeeded + e.items.length

theorem complete_of_settles {code : Res → ReturnCode} {own : Name → Res → Out → Prop}
    {good : Out → Prop} {names : List Name} {infos : List (Name × Req)} {rs : List Res}
    {m : AList (fun _ : Name => Out)} {done : List Name}
    {failed added items : List (BatchItemError Name)} {op : String} {succeeded : Nat}
    (hs : Settles code own good infos rs ∅ m done added)
    (hnames : names.Perm (infos.map Prod.fst ++ failed.map (·.symbol))) (hitems : items.Perm (failed ++ added))
    (hcount : names.Nodup → succeeded = done.length) :
    Complete names good m (newBatchError op names.length succeeded items) := by
  have hitemsOf : namedItems (newBatchError op names.length succeeded items) = items := by
    unfold newBatchError
    split
    · next hempty => exact (List.isEmpty_iff.1 hempty).symm
    · rfl
  -- the names are those with a good result and those of the items
  have hall : names.Perm (done ++ items.map (·.symbol)) := by
    refine (hnames.trans (hs.names.append_right _)).trans ?_
    rw [append_assoc, ← map_append]
    exact ((perm_append_comm.trans hitems.symm).map _).append_left done
  refine ⟨fun name hname => ?_, fun hnodup name out hout hgood item hitem heq => ?_, fun hnodup e he => ?_⟩
  · rw [hitemsOf]
    rcases mem_append.1 (hall.mem_iff.1 hname) with hdone | hitem
    · refine (hs.finished name hdone).imp_right fun hadded => ?_
      obtain ⟨item, hitem, rfl⟩ := mem_map.1 hadded
      exact ⟨item, hitems.mem_iff.2 (mem_append_right _ hitem), rfl⟩
    · exact .inr (mem_map.1 hitem)
  · rw [hitemsOf] at hitem
    have hdisjoint := disjoint_of_nodup_append (hall.nodup_iff.1 hnodup)
    rcases hs.recorded name out hout hgood with hold | hdone
    · rw [AList.lookup_empty] at hold
      cases hold
    · exact hdisjoint hdone (mem_map.2 ⟨item, hitem, heq⟩)
  have hlen := hall.length_eq
  rw [length_append, length_map] at hlen
  unfold newBatchError at he
  split at he
  · cases he
  obtain rfl := BatchFailure.batch.inj (Option.some.inj he)
  refine ⟨rfl, ?_⟩
  rw [hcount hnodup]
  exact hlen

section Calls

/-- What `ReadMultipleSymbols` returns in an attempt, when its sum command has returned these results. -/
def ReadSession.outcome (sess : ReadSession Name Value) (k : Nat) (names : List Name)
    (rs : List SumReadResult) : AList (fun _ : Name => Value) × Option (BatchFailure Name) :=
  let r := readLoop (sess.live k) (sess.resolve k names).1 rs ∅ (sess.resolve k names).2
  (r.1, newBatchError "read" names.length r.1.keys.length r.2)

variable (sess : WriteSession Name Value) (k : Nat) (values : List (Name × Value))

def WriteSession.outcome
    (rs : List SumWriteResult) : AList (fun _ : Name => ReturnCode) × Option (BatchFailure Name) :=
  let r := writeLoop (sess.resolve k values).1 rs ∅ 0 (sess.resolve k values).2
  (r.1, newBatchError "write" values.length r.2.1 (sess.sortBatchItems r.2.2))

/-- The value comes from the result at the position of the name's own request. -/
def ReadSession.OwnResult (sess : ReadSession Name Value) (k : Nat) (names : List Name)
    (rs : List SumReadResult) (name : Name) (value : Value) : Prop :=
  ∃ (i : Nat) (req : SumReadRequest) (r : SumReadResult), sess.getSymbol k name = .ok req ∧
    (sess.resolve k names).1[i]? = some (name, req) ∧ rs[i]? = some r ∧ ReadAs (sess.live k) name r value

def WriteSession.OwnResult (rs : List SumWriteResult) (name : Name) (code : ReturnCode) : Prop :=
  ∃ (i : Nat) (req : SumWriteRequest) (r : SumWriteResult),
    (∃ value, (name, value) ∈ values ∧ sess.resolveOne k (name, value) = .ok req) ∧
      (sess.resolve k values).1[i]? = some (name, req) ∧ rs[i]? = some r ∧ code = r.error

/-- No name is missing from the outcome, and what is stored under a name is its own. -/
def ReadSession.Lossless (sess : ReadSession Name Value) (k : Nat) (names : List Name)
    (rs : List SumReadResult) : Prop :=
  Complete names (fun _ => True) (sess.outcome k names rs).1 (sess.outcome k names rs).2 ∧
    ∀ name value, (sess.outcome k names rs).1.lookup name = some value → sess.OwnResult k names rs name value

def WriteSession.Lossless (rs : List SumWriteResult) : Prop :=
  Complete (values.map Prod.fst) (· = noErrors) (sess.outcome k values rs).1
      (sess.outcome k values rs).2 ∧
    ∀ name code, (sess.outcome k values rs).1.lookup name = some code → sess.OwnResult k values rs name code

/-- The results are those of the attempt's sum command, if it sent one. -/
def ReadSession.Answered (sess : ReadSession Name Value) (k : Nat) (names : List Name)
    (rs : List SumReadResult) : Prop :=
  (sess.resolve k names).1 ≠ [] →
    (sumRead (sess.net k) (sess.conn k) ((sess.resolve k names).1.map (·.2))).1 = ⟨rs, none⟩

def WriteSession.Answered (rs : List SumWriteResult) : Prop :=
  (sess.resolve k values).1 ≠ [] →
    (sumWrite (sess.net k) (sess.conn k) ((sess.resolve k values).1.map (·.2))).1 = ⟨rs, none⟩

theorem ReadSession.lossless (sess : ReadSession Name Value) (k : Nat) (names : List Name)
    (rs : List SumReadResult) : sess.Lossless k names rs := by
  obtain ⟨done, added, hitems, hs⟩ :=
    readLoop_settles (sess.live k) (sess.resolve k names).1 rs ∅ (sess.resolve k names).2
  have hnames : names.Perm ((sess.resolve k names).1.map Prod.fst ++
      (sess.resolve k names).2.map (·.symbol)) := by
    have hperm := resolveNames_perm id
      (fun name => (sess.getSymbol k name).mapError BatchSkip.symbolUnresolved) names
    rwa [map_id] at hperm
  refine ⟨complete_of_settles hs hnames (.of_eq hitems) fun hnodup => ?_, fun name value hvalue => ?_⟩
  · -- with distinct names the map has one entry for each good result
    have hinfos := (hnames.nodup_iff.1 hnodup).of_append_left
    have hdisjoint := hs.names.nodup_iff.1 hinfos
    apply Perm.length_eq
    rw [perm_ext_iff_of_nodup (AList.keys_nodup _) hdisjoint.of_append_left]
    intro name
    rw [← AList.mem_keys, ← AList.lookup_isSome, Option.isSome_iff_exists]
    constructor
    · rintro ⟨value, hvalue⟩
      exact (hs.recorded name value hvalue trivial).resolve_left (by simp)
    intro hmem
    obtain ⟨value, hvalue, -⟩ :=
      (hs.finished name hmem).resolve_right (disjoint_of_nodup_append hdisjoint hmem)
    exact ⟨value, hvalue⟩
  · obtain hold | ⟨i, req, r, hi, hr, hown⟩ := hs.owned name value hvalue
    · cases hold
    obtain ⟨x, -, rfl, hreq⟩ := exists_of_mem_resolveNames (mem_of_getElem? hi)
    refine ⟨i, req, r, ?_, hi, hr, hown⟩
    show sess.getSymbol k x = .ok req
    cases hget : sess.getSymbol k x with
    | error =>
      rw [hget] at hreq
      cases hreq
    | ok =>
      rw [hget] at hreq
      exact congrArg Except.ok (Except.ok.inj hreq)

theorem WriteSession.lossless (rs : List SumWriteResult) : sess.Lossless k values rs := by
  obtain ⟨done, added, hitems, hcount, hs⟩ :=
    writeLoop_settles (sess.resolve k values).1 rs ∅ 0 (sess.resolve k values).2
  rw [Nat.zero_add] at hcount
  refine ⟨?_, fun name code hcode => ?_⟩
  · have hlen : (values.map Prod.fst).length = values.length := length_map _
    show Complete _ _ _ (newBatchError "write" values.length _ _)
    rw [← hlen]
    refine complete_of_settles hs (resolveNames_perm Prod.fst (sess.resolveOne k) values) ?_ fun _ => hcount
    exact (mergeSort_perm _ _).trans (.of_eq hitems)
  obtain hold | ⟨i, req, r, hi, hr, hown⟩ := hs.owned name code hcode
  · cases hold
  · obtain ⟨⟨n, value⟩, hmem, rfl, hreq⟩ := exists_of_mem_resolveNames (mem_of_getElem? hi)
    exact ⟨i, req, r, ⟨value, hmem, hreq⟩, hi, hr, hown⟩

/-- An attempt that returns has the outcome of its sum command's results, if it sent one. -/
theorem ReadSession.attempt_ok {sess : ReadSession Name Value} {k : Nat} {names : List Name}
    {out : AList (fun _ : Name => Value) × Option (BatchFailure Name)} (h : sess.attempt k names = .ok out) :
    ∃ rs, out = sess.outcome k names rs ∧ sess.Answered k names rs := by
  unfold ReadSession.attempt at h
  dsimp only at h
  split at h
  · next hempty =>
    have hnil := List.isEmpty_iff.1 hempty
    refine ⟨[], ?_, fun hne => absurd hnil hne⟩
    rw [← Except.ok.inj h, ReadSession.outcome, hnil, readLoop]
    rfl
  split at h
  · cases h
  next herr =>
  refine ⟨_, (Except.ok.inj h).symm, fun _ => ?_⟩
  rw [← herr]

theorem WriteSession.attempt_ok {sess : WriteSession Name Value} {k : Nat} {values : List (Name × Value)}
    {out : AList (fun _ : Name => ReturnCode) × Option (BatchFailure Name)}
    (h : sess.attempt k values = .ok out) :
    ∃ rs, out = sess.outcome k values rs ∧ sess.Answered k values rs := by
  unfold WriteSession.attempt at h
  dsimp only at h
  split at h
  · next hempty =>
    have hnil := List.isEmpty_iff.1 hempty
    refine ⟨[], ?_, fun hne => absurd hnil hne⟩
    rw [← Except.ok.inj h, WriteSession.outcome, hnil, writeLoop]
  split at h
  · cases h
  next herr =>
  refine ⟨_, (Except.ok.inj h).symm, fun _ => ?_⟩
  rw [← herr]

/-- **No item disappears.**  Whatever a batch read's or write's sum command returned, every name is
    successful or an item of the `BatchError`, one of the two with the counts right if the names are distinct,
    and what is stored under a name comes from the result of its own request; and a call that returns no
    error or a `BatchError` returns such an outcome. -/
theorem no_item_lost :
    (∀ (sess : ReadSession Name Value) (k : Nat) (names : List Name) (rs : List SumReadResult),
      sess.Lossless k names rs) ∧ (∀ (sess : ReadSession Name Value) (names : List Name),
      (∀ e, (sess.readMultipleSymbols names).2 ≠ some (.failed e)) →
      ∃ k ≤ 1, ∃ rs, sess.readMultipleSymbols names = sess.outcome k names rs ∧ sess.Answered k names rs) ∧
    (∀ (sess : WriteSession Name Value) (k : Nat) (values : List (Name × Value)) (rs : List SumWriteResult),
      sess.Lossless k values rs) ∧ ∀ (sess : WriteSession Name Value) (values : List (Name × Value)),
      (∀ e, (sess.writeMultipleSymbols values).2 ≠ some (.failed e)) →
      ∃ k ≤ 1, ∃ rs, sess.writeMultipleSymbols values = sess.outcome k values rs ∧
        sess.Answered k values rs := by
  refine ⟨ReadSession.lossless, fun sess names h => ?_, WriteSession.lossless, fun sess values h => ?_⟩
  · unfold ReadSession.readMultipleSymbols ReadSession.readMultipleSymbolsRetry at h ⊢
    split at h
    · next hempty =>
      obtain rfl := List.isEmpty_iff.1 hempty
      exact ⟨0, Nat.zero_le 1, [], rfl, fun hne => absurd rfl hne⟩
    next hne =>
    rw [if_neg hne]
    obtain ⟨k, hk, hattempt⟩ := retry_returned h
    exact ⟨k, hk, ReadSession.attempt_ok hattempt⟩
  · unfold WriteSession.writeMultipleSymbols WriteSession.writeMultipleSymbolsRetry at h ⊢
    split at h
    · next hempty =>
      obtain rfl := List.isEmpty_iff.1 hempty
      refine ⟨0, Nat.zero_le 1, [], ?_, fun hne => absurd rfl hne⟩
      simp [WriteSession.outcome, WriteSession.resolve, resolveNames, writeLoop, WriteSession.sortBatchItems,
        newBatchError]
    next hne =>
    rw [if_neg hne]
    obtain ⟨k, hk, hattempt⟩ := retry_returned h
    exact ⟨k, hk, WriteSession.attempt_ok hattempt⟩

end Calls

end GoAds.Client
