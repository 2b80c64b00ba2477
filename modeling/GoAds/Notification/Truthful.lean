import GoAds.Notification.Indexed

/-!
# `Notification.Truthful` — what a batch subscribe reports

Four writers fill `results`: the resolve loop, `onItem` through the index map, the abort path, and `settle`
after a sweep.  The invariant follows one request at a time: what the client has reported for it (`items`),
what stands in the result of its config, and who holds the handle if the PLC has given one.  No writer
touches the result of another config, since the index map is strictly increasing.
-/

namespace GoAds.Notification.Indexed

open Interleaving Client List Locals
open ReturnCode (noErrors)

variable {Name Key : Type}

/-! ## Writing results -/

namespace Locals

/-- A result that is there is what `results[i]` reads. -/
theorem result_of_getElem? {l : Locals Name} {i : Nat} {r : SumNotificationResult}
    (h : l.results[i]? = some r) : l.result i = r := by
  unfold result
  rw [h]
  rfl

variable (f : SumNotificationResult → SumNotificationResult)

theorem getElem?_amend (l : Locals Name) (idx j : Nat) :
    (l.amend f idx).results[j]? = if j = idx then (l.results[j]?).map f else l.results[j]? := by
  show (l.results.set idx (f (l.result idx)))[j]? = _
  by_cases hj : j = idx
  · subst hj
    rw [if_pos rfl, getElem?_set_self']
    cases hr : l.results[j]? with
    | none => rfl
    | some =>
      rw [result_of_getElem? hr]
      rfl
  · rw [if_neg hj, getElem?_set_ne (Ne.symm hj)]

/-- A loop that amends results: each of its positions is amended, any number of times, and nothing else
    changes. -/
theorem getElem?_foldl_amend {f : SumNotificationResult → SumNotificationResult}
    (hf : ∀ r, f (f r) = f r) (is : List Nat) (l : Locals Name) (j : Nat) :
    (is.foldl (amend f) l).results[j]? = if j ∈ is then (l.results[j]?).map f else l.results[j]? := by
  induction is generalizing l with
  | nil => simp
  | cons i is ih =>
    rw [foldl_cons, ih, getElem?_amend]
    by_cases hj : j = i
    · subst hj
      simp only [if_pos, mem_cons, true_or]
      split
      · rw [Option.map_map]
        congr 1
        funext r
        exact hf r
      · rfl
    · simp [hj]

theorem foldl_amend (is : List Nat) (l : Locals Name) :
    is.foldl (amend f) l = { l with results := (is.foldl (amend f) l).results } := by
  induction is generalizing l with
  | nil => rfl
  | cons i is ih =>
    rw [foldl_cons, ih]
    rfl

theorem length_foldl_amend (is : List Nat)
    (l : Locals Name) : (is.foldl (amend f) l).results.length = l.results.length := by
  induction is generalizing l with
  | nil => rfl
  | cons i is ih =>
    rw [foldl_cons, ih]
    exact length_set

theorem markItem_idem (r : SumNotificationResult) : markItem (markItem r) = markItem r := by
  unfold markItem
  split <;> rfl

theorem strandItem_idem (r : SumNotificationResult) : strandItem (strandItem r) = strandItem r := rfl

end Locals

/-! ## One request -/

/-- **Where one request stands**: what was reported for it, and the result of its config. -/
inductive Noted (l : Locals Name) (idx : Nat) : Option SumNotificationResult → Prop
  | waiting (hc : idx ∉ l.committedIdx) (hr : l.results[idx]? = some {}) : Noted l idx none
  | aborted (hc : idx ∉ l.committedIdx) (hr : l.results[idx]? = some Locals.abandoned) :
      Noted l idx none
  | kept (a : SumNotificationResult) (ha : a.skipped.isSome = true ∨ a.error ≠ noErrors)
      (hc : idx ∉ l.committedIdx) (hr : l.results[idx]? = some a) : Noted l idx (some a)
  | zero (a r : SumNotificationResult) (ha : a.skipped = none) (he : a.error = noErrors)
      (h0 : a.handle = 0) (hc : idx ∉ l.committedIdx) (hr : l.results[idx]? = some r)
      (hs : r.skipped.isSome = true) : Noted l idx (some a)
  | bound (a : SumNotificationResult) (ha : a.skipped = none) (he : a.error = noErrors)
      (h0 : a.handle ≠ 0) (hc : idx ∈ l.committedIdx) (hr : l.results[idx]? = some a) :
      Noted l idx (some a)
  | refused (a r : SumNotificationResult) (ha : a.skipped = none) (he : a.error = noErrors)
      (h0 : a.handle ≠ 0) (hc : idx ∉ l.committedIdx) (hr : l.results[idx]? = some r)
      (hs : r.skipped.isSome = true) (hh : r.handle = a.handle) (hm : a.handle ∈ l.refused) :
      Noted l idx (some a)

theorem Noted.frame {l l' : Locals Name} {idx : Nat} {a : Option SumNotificationResult}
    (h : Noted l idx a) (hr : l'.results[idx]? = l.results[idx]?)
    (hc : idx ∈ l'.committedIdx ↔ idx ∈ l.committedIdx) (hm : l.refused ⊆ l'.refused) : Noted l' idx a := by
  cases h with
  | waiting hn hres => exact .waiting (fun hi => hn (hc.1 hi)) (hr.trans hres)
  | aborted hn hres => exact .aborted (fun hi => hn (hc.1 hi)) (hr.trans hres)
  | kept a ha hn hres => exact .kept a ha (fun hi => hn (hc.1 hi)) (hr.trans hres)
  | zero a r ha he h0 hn hres hs => exact .zero a r ha he h0 (fun hi => hn (hc.1 hi)) (hr.trans hres) hs
  | bound a ha he h0 hi hres => exact .bound a ha he h0 (hc.2 hi) (hr.trans hres)
  | refused a r ha he h0 hn hres hs hh hmem =>
    exact .refused a r ha he h0 (fun hi => hn (hc.1 hi)) (hr.trans hres) hs hh (hm hmem)

/-- **The invariant of the local variables.** -/
structure Filled (l : Locals Name) : Prop where
  length : l.results.length = l.configs.length
  sorted : l.infos.Pairwise fun a b => a.configIndex < b.configIndex
  config : ∀ info ∈ l.infos, l.configs[info.configIndex]? = some info.config
  requests : l.requests = l.infos.map SymbolInfo.request
  unsent : ∀ j < l.configs.length, (∀ info ∈ l.infos, info.configIndex ≠ j) →
    ∃ r, l.results[j]? = some r ∧ r.skipped.isSome = true
  noted : ∀ (k : Nat) (info : SymbolInfo Name), l.infos[k]? = some info →
    Noted l info.configIndex l.items[k]?

section Filled

variable {l l' : Locals Name} {info : SymbolInfo Name} {a : SumNotificationResult}
  {item : Option SumNotificationResult}

theorem Filled.index_ne (h : Filled l) {k k' : Nat} {info' : SymbolInfo Name}
    (hk : l.infos[k]? = some info) (hk' : l.infos[k']? = some info') (hne : k ≠ k') :
    info.configIndex ≠ info'.configIndex := by
  obtain ⟨hlt, rfl⟩ := List.getElem?_eq_some_iff.1 hk
  obtain ⟨hlt', rfl⟩ := List.getElem?_eq_some_iff.1 hk'
  have hpair := pairwise_iff_getElem.1 h.sorted
  rcases Nat.lt_or_gt_of_ne hne with hlt'' | hgt
  · exact (hpair k k' hlt hlt' hlt'').ne
  · exact (hpair k' k hlt' hlt hgt).ne'

theorem Filled.answer (h : Filled l) (answers : List SumNotificationResult) :
    Filled { l with answers := answers } where
  length := h.length
  sorted := h.sorted
  config := h.config
  requests := h.requests
  unsent := h.unsent
  noted k info hk := (h.noted k info hk).frame rfl Iff.rfl (Subset.refl _)

/-- What `onItem` changes when it reports `a` for the request of `info`. -/
structure Records (l l' : Locals Name) (info : SymbolInfo Name) (a : SumNotificationResult) : Prop where
  configs : l'.configs = l.configs
  infos : l'.infos = l.infos
  requests : l'.requests = l.requests
  items : l'.items = l.items ++ [a]
  length : l'.results.length = l.results.length
  results : ∀ j, j ≠ info.configIndex → l'.results[j]? = l.results[j]?
  committed : ∀ j, j ≠ info.configIndex → (j ∈ l'.committedIdx ↔ j ∈ l.committedIdx)
  refused : l.refused ⊆ l'.refused
  noted : Noted l' info.configIndex (some a)

section

variable (h : Filled l) (hinfo : l.infos[l.items.length]? = some info)

include h hinfo

/-- **Reporting the next request keeps the invariant.** -/
theorem Filled.record (hrec : Records l l' info a) : Filled l' where
  length := by rw [hrec.length, h.length, hrec.configs]
  sorted := hrec.infos ▸ h.sorted
  config x hx := by
    rw [hrec.infos] at hx
    rw [hrec.configs]
    exact h.config x hx
  requests := by rw [hrec.requests, h.requests, hrec.infos]
  unsent j hj hne := by
    rw [hrec.configs] at hj
    rw [hrec.infos] at hne
    have hother : j ≠ info.configIndex := fun heq => hne info (mem_of_getElem? hinfo) heq.symm
    rw [hrec.results j hother]
    exact h.unsent j hj hne
  noted k x hx := by
    rw [hrec.infos] at hx
    rw [hrec.items]
    by_cases hk : k = l.items.length
    · subst hk
      rw [hinfo] at hx
      cases hx
      rw [getElem?_concat_length]
      exact hrec.noted
    have hne : x.configIndex ≠ info.configIndex := h.index_ne hx hinfo hk
    have hframe := (h.noted k x hx).frame (hrec.results _ hne) (hrec.committed _ hne) hrec.refused
    have hsame : (l.items ++ [a])[k]? = l.items[k]? := by
      rcases Nat.lt_or_gt_of_ne hk with hlt | hgt
      · exact getElem?_append_left hlt
      · rw [getElem?_eq_none (by rw [length_append]; exact hgt), getElem?_eq_none hgt.le]
    rw [hsame]
    exact hframe

theorem Filled.waits : info.configIndex ∉ l.committedIdx ∧ info.configIndex < l.results.length := by
  have hnoted := h.noted _ info hinfo
  rw [getElem?_eq_none (Nat.le_refl _)] at hnoted
  cases hnoted with
  | waiting hc hr | aborted hc hr => exact ⟨hc, (List.getElem?_eq_some_iff.1 hr).1⟩

end

/-- The report of `a` that only writes the result `r`. -/
theorem Records.of_set (r : SumNotificationResult)
    (hnoted : Noted { l.setResult info.configIndex r with items := l.items ++ [a] } info.configIndex
      (some a)) : Records l { l.setResult info.configIndex r with items := l.items ++ [a] } info a where
  configs := rfl
  infos := rfl
  requests := rfl
  items := rfl
  length := length_set
  results _ hj := getElem?_set_ne (Ne.symm hj)
  committed _ _ := Iff.rfl
  refused := Subset.refl _
  noted := hnoted

/-- An item that is skipped, or refused by the PLC, is the result. -/
theorem Filled.keep (h : Filled l) (hinfo : l.infos[l.items.length]? = some info)
    (ha : a.skipped.isSome = true ∨ a.error ≠ noErrors) :
    Filled { l.setResult info.configIndex a with items := l.items ++ [a] } := by
  obtain ⟨hc, hlt⟩ := h.waits hinfo
  apply h.record hinfo
  apply Records.of_set
  exact .kept a ha hc (getElem?_set_self hlt)

theorem Filled.skipItem (h : Filled l) {i} (hi : l.items.length = i) (hlt : i < l.infos.length)
    (ha : a.skipped.isSome = true) : Filled (l.skipItem i a) := by
  subst hi
  have hinfo := getElem?_eq_getElem hlt
  unfold Locals.skipItem
  rw [hinfo]
  exact h.keep hinfo (.inl ha)

variable {r : SumNotificationResult}

section

variable (h : Filled l) (hinfo : l.infos[l.items.length]? = some info) (ha : a.skipped = none)
  (he : a.error = noErrors)

include h hinfo ha he

theorem Filled.zero (h0 : a.handle = 0)
    (hs : r.skipped.isSome = true) :
    Filled { l.setResult info.configIndex r with items := l.items ++ [a] } := by
  obtain ⟨hc, hlt⟩ := h.waits hinfo
  apply h.record hinfo
  apply Records.of_set
  exact .zero a r ha he h0 hc (getElem?_set_self hlt) hs

/-- The commit is refused: the handle is kept for the release. -/
theorem Filled.refuse (h0 : a.handle ≠ 0)
    (hs : r.skipped.isSome = true) (hh : r.handle = a.handle) : Filled { l.setResult info.configIndex r with
      refused := l.refused ++ [a.handle]
      items := l.items ++ [a] } := by
  obtain ⟨hc, hlt⟩ := h.waits hinfo
  refine h.record hinfo ⟨rfl, rfl, rfl, rfl, length_set,
    fun _ hj => getElem?_set_ne (Ne.symm hj), fun _ _ => Iff.rfl,
    subset_append_left _ _, ?_⟩
  exact .refused a r ha he h0 hc (getElem?_set_self hlt) hs hh (mem_append_right _ (mem_singleton.2 rfl))

theorem Filled.commit (h0 : a.handle ≠ 0) :
    Filled { l.setResult info.configIndex a with
      committedIdx := l.committedIdx ++ [info.configIndex]
      items := l.items ++ [a] } := by
  obtain ⟨-, hlt⟩ := h.waits hinfo
  refine h.record hinfo ⟨rfl, rfl, rfl, rfl, length_set,
    fun _ hj => getElem?_set_ne (Ne.symm hj), fun j hj => ?_, Subset.refl _, ?_⟩
  · show j ∈ l.committedIdx ++ [info.configIndex] ↔ j ∈ l.committedIdx
    simp [hj]
  · exact .bound a ha he h0 (mem_append_right _ (mem_singleton.2 rfl)) (getElem?_set_self hlt)

end

/-! ## The abort path -/

theorem infos_skipItem (l : Locals Name) (i : Nat) (a : SumNotificationResult) :
    (l.skipItem i a).infos = l.infos ∧ (l.skipItem i a).configs = l.configs ∧
      (l.skipItem i a).answers = l.answers ∧ (l.skipItem i a).items = l.items ++ [a] := by
  unfold Locals.skipItem
  split
  · exact ⟨rfl, rfl, rfl, rfl⟩
  · exact ⟨rfl, rfl, rfl, rfl⟩

theorem Filled.skipItems (n : Nat) {l : Locals Name} (h : Filled l)
    (hn : l.items.length + n = l.infos.length) :
    let l' := (range' l.items.length n).foldl (fun l j => l.skipItem j Locals.abandoned) l
    Filled l' ∧ l'.configs = l.configs ∧ l'.answers = l.answers ∧
      l'.items = l.items ++ replicate n Locals.abandoned := by
  induction n generalizing l with
  | zero => exact ⟨h, rfl, rfl, (append_nil _).symm⟩
  | succ n ih =>
    obtain ⟨hinfos, hconfigs, hanswers, hitems⟩ := infos_skipItem l l.items.length Locals.abandoned
    have hlen : (l.skipItem l.items.length Locals.abandoned).items.length = l.items.length + 1 := by
      rw [hitems, length_append, length_singleton]
    have hnext : Filled (l.skipItem l.items.length Locals.abandoned) :=
      h.skipItem rfl (by omega) rfl
    have hrest := ih hnext (by rw [hlen, hinfos]; omega)
    rw [hlen, hconfigs, hanswers, hitems, append_assoc] at hrest
    rw [range'_succ, foldl_cons]
    exact hrest

theorem Filled.abortFrom (h : Filled l) (hlt : l.items.length < l.requests.length) :
    Filled (l.abortFrom l.items.length) ∧ (l.abortFrom l.items.length).configs = l.configs ∧
      (l.abortFrom l.items.length).answers = l.answers ∧
      (l.abortFrom l.items.length).items =
        l.items ++ replicate (l.requests.length - l.items.length) Locals.abandoned := by
  have hreq : l.requests.length = l.infos.length := by rw [h.requests, length_map]
  apply h.skipItems
  omega

/-- Every request has an outcome: it was reported, or its config is skipped. -/
def Complete (l : Locals Name) : Prop :=
  ∀ (k : Nat) (info : SymbolInfo Name), l.infos[k]? = some info → l.items[k]? = none →
    l.results[info.configIndex]? = some Locals.abandoned

theorem complete_of_length (h : l.infos.length ≤ l.items.length) : Complete l := by
  intro k info hinfo hnone
  obtain ⟨hlt, -⟩ := List.getElem?_eq_some_iff.1 hinfo
  rw [List.getElem?_eq_none_iff] at hnone
  omega

theorem markItem_of_reported (h : r.skipped.isSome = true ∨ r.handle ≠ 0 ∨ r.error ≠ noErrors) :
    Locals.markItem r = r := by
  unfold Locals.markItem
  rw [if_pos]
  simpa [or_assoc] using h

theorem markAborted_eq (l : Locals Name) : l.markAborted = { l with results := l.markAborted.results } :=
  foldl_amend ..

/-- The loop over `infos` changes the results of unreported requests only. -/
theorem Noted.mark (h : Noted l info.configIndex item) (hmem : info ∈ l.infos) :
    Noted l.markAborted info.configIndex item ∧
      (item = none → l.markAborted.results[info.configIndex]? = some Locals.abandoned) := by
  have hin : info.configIndex ∈ l.infos.map (·.configIndex) := mem_map_of_mem hmem
  have hres : l.markAborted.results[info.configIndex]? =
      (l.results[info.configIndex]?).map Locals.markItem := by
    unfold Locals.markAborted
    rw [getElem?_foldl_amend markItem_idem, if_pos hin]
  rw [markAborted_eq]
  -- a result that was reported stays
  have hkeep : ∀ r, l.results[info.configIndex]? = some r →
      (r.skipped.isSome = true ∨ r.handle ≠ 0 ∨ r.error ≠ noErrors) →
      Noted { l with results := l.markAborted.results } info.configIndex item := by
    intro r hr hrep
    refine h.frame ?_ Iff.rfl (Subset.refl _)
    rw [hres, hr, Option.map_some, markItem_of_reported hrep]
  cases h with
  | waiting hc hr | aborted hc hr =>
    have hmarked : l.markAborted.results[info.configIndex]? = some Locals.abandoned := by
      rw [hres, hr]
      rfl
    exact ⟨.aborted hc hmarked, fun _ => hmarked⟩
  | kept a ha hc hr => exact ⟨hkeep a hr (ha.imp_right .inr), fun hnone => by cases hnone⟩
  | zero a r ha he h0 hc hr hs | refused a r ha he h0 hc hr hs =>
    exact ⟨hkeep r hr (.inl hs), fun hnone => by cases hnone⟩
  | bound a ha he h0 hc hr => exact ⟨hkeep a hr (.inr (.inl h0)), fun hnone => by cases hnone⟩

theorem Filled.markAborted (h : Filled l) :
    Filled l.markAborted ∧ l.markAborted.configs = l.configs ∧ l.markAborted.answers = l.answers ∧
      l.markAborted.items = l.items ∧ Complete l.markAborted := by
  have hlen : l.markAborted.results.length = l.results.length := length_foldl_amend ..
  have hmark : ∀ (k : Nat) (info : SymbolInfo Name), l.infos[k]? = some info → _ :=
    fun k info hk => (h.noted k info hk).mark (mem_of_getElem? hk)
  have hunsent : ∀ j, (∀ info ∈ l.infos, info.configIndex ≠ j) → l.markAborted.results[j]? = l.results[j]? := by
    intro j hne
    -- the loop passes a config that was not sent by
    have hout : j ∉ l.infos.map (·.configIndex) := by
      intro hmem
      obtain ⟨info, hinfo, hidx⟩ := mem_map.1 hmem
      exact hne info hinfo hidx
    unfold Locals.markAborted
    rw [getElem?_foldl_amend markItem_idem, if_neg hout]
  rw [markAborted_eq] at hmark ⊢
  refine ⟨⟨hlen.trans h.length, h.sorted, h.config, h.requests, fun j hj hne => ?_, fun k info hk =>
    (hmark k info hk).1⟩, rfl, rfl, rfl, fun k info hk hnone => (hmark k info hk).2 hnone⟩
  show ∃ r, l.markAborted.results[j]? = some r ∧ _
  rw [hunsent j hne]
  exact h.unsent j hj hne

end Filled

/-! ## `settle` -/

/-- **What a result says of its request**, when the client has reported `item` for it: nothing was
    answered, the client or the PLC refused, there was no handle, or the handle `item.handle` is bound or
    was given to the delete. -/
def Describes (item : Option SumNotificationResult) (r : SumNotificationResult)
    (bound released : List Handle) : Prop :=
  match item with
  | none => r = Locals.abandoned
  | some a =>
    if a.skipped.isSome = true ∨ a.error ≠ noErrors then r = a
    else if a.handle = 0 then r.skipped.isSome = true
    else (a.handle ∈ bound ∧ r = a) ∨
      (r.skipped.isSome = true ∧ r.handle = a.handle ∧ a.handle ∈ released)

section Describes

variable {a r : SumNotificationResult} {bound released : List Handle}

theorem describes_of_refused (ha : a.skipped.isSome = true ∨ a.error ≠ noErrors) :
    Describes (some a) r bound released ↔ r = a := by
  simp only [Describes, if_pos ha]

theorem describes_of_zero (ha : a.skipped = none) (he : a.error = noErrors)
    (h0 : a.handle = 0) : Describes (some a) r bound released ↔ r.skipped.isSome = true := by
  simp [Describes, ha, he, h0]

theorem describes_of_handle (ha : a.skipped = none) (he : a.error = noErrors)
    (h0 : a.handle ≠ 0) : Describes (some a) r bound released ↔ (a.handle ∈ bound ∧ r = a) ∨
      (r.skipped.isSome = true ∧ r.handle = a.handle ∧ a.handle ∈ released) := by
  simp [Describes, ha, he, h0]

theorem Describes.mem_bound {item} (h : Describes item r bound released)
    (hs : r.skipped = none) (he : r.error = noErrors) : r.handle ∈ bound := by
  have hnot : ¬ r.skipped.isSome = true := by simp [hs]
  cases item with
  | none =>
    obtain rfl : r = Locals.abandoned := h
    cases hs
  | some a =>
    simp only [Describes] at h
    split at h
    · next hrefused =>
      rw [h] at hnot he
      exact absurd he (hrefused.resolve_left hnot)
    split at h
    · exact absurd h hnot
    rcases h with ⟨hb, rfl⟩ | ⟨hskip, -⟩
    · exact hb
    · exact absurd hskip hnot

end Describes

/-- **What is returned.** -/
structure Told (l : Locals Name) (bound released : List Handle) : Prop where
  length : l.results.length = l.configs.length
  requests : l.requests = l.infos.map SymbolInfo.request
  unsent : ∀ j < l.configs.length, (∀ info ∈ l.infos, info.configIndex ≠ j) →
    ∃ r, l.results[j]? = some r ∧ r.skipped.isSome = true
  sent : ∀ (k : Nat) (info : SymbolInfo Name), l.infos[k]? = some info →
    l.configs[info.configIndex]? = some info.config ∧
      ∃ r, l.results[info.configIndex]? = some r ∧ Describes l.items[k]? r bound released

section Settle

variable {l : Locals Name} {m : Manager Name Key}

theorem settle_eq (l : Locals Name) (m : Manager Name Key) :
    l.settle m = { l with results := (l.settle m).results, refused := (l.settle m).refused } := by
  have hsame := foldl_amend Locals.strandItem (l.stranded m) l
  unfold Locals.settle
  rw [hsame]

theorem getElem?_settle (l : Locals Name) (m : Manager Name Key) (j : Nat) : (l.settle m).results[j]? =
      if j ∈ l.stranded m then (l.results[j]?).map Locals.strandItem else l.results[j]? :=
  getElem?_foldl_amend strandItem_idem ..

variable {idx : Nat} {r : SumNotificationResult}

theorem mem_stranded (hr : l.results[idx]? = some r) :
    idx ∈ l.stranded m ↔ idx ∈ l.committedIdx ∧ r.handle ∉ m.activeNotifications := by
  unfold Locals.stranded
  rw [mem_filter, result_of_getElem? hr, decide_eq_true_eq]

/-- What was refused stays, and a committed entry that is skipped now joins. -/
theorem subset_refused_settle (l : Locals Name) (m : Manager Name Key) :
    l.refused ⊆ (l.settle m).refused := by
  have hsame := foldl_amend Locals.strandItem (l.stranded m) l
  unfold Locals.settle
  rw [hsame]
  exact subset_append_left _ _

theorem mem_refused_settle (hc : idx ∈ l.committedIdx)
    (hr : (l.settle m).results[idx]? = some r) (hs : r.skipped.isSome = true) (h0 : r.handle ≠ 0) :
    r.handle ∈ (l.settle m).refused := by
  have hsame := foldl_amend Locals.strandItem (l.stranded m) l
  have hcommitted : ((l.stranded m).foldl (Locals.amend Locals.strandItem) l).committedIdx =
      l.committedIdx := by rw [hsame]
  have hresult : ((l.stranded m).foldl (Locals.amend Locals.strandItem) l).result idx = r :=
    result_of_getElem? hr
  apply mem_append_right
  rw [hcommitted, mem_map]
  refine ⟨idx, mem_filter.2 ⟨hc, ?_⟩, by rw [hresult]⟩
  rw [hresult, hs]
  simpa using h0

theorem Noted.settle {item} (h : Noted l idx item)
    (hcomplete : item = none → l.results[idx]? = some Locals.abandoned) :
    ∃ r, (l.settle m).results[idx]? = some r ∧
      Describes item r m.activeNotifications.keys (l.settle m).refused := by
  -- an entry that was not committed is not stranded
  have hother : idx ∉ l.committedIdx → (l.settle m).results[idx]? = l.results[idx]? := by
    intro hc
    rw [getElem?_settle, if_neg]
    intro hmem
    exact hc (mem_filter.1 hmem).1
  cases h with
  | waiting hc hr | aborted hc hr => exact ⟨_, (hother hc).trans (hcomplete rfl), rfl⟩
  | kept a ha hc hr => exact ⟨a, (hother hc).trans hr, (describes_of_refused ha).2 rfl⟩
  | zero a r ha he h0 hc hr hs =>
    exact ⟨r, (hother hc).trans hr, (describes_of_zero ha he h0).2 hs⟩
  | refused a r ha he h0 hc hr hs hh hm =>
    refine ⟨r, (hother hc).trans hr, (describes_of_handle ha he h0).2 (.inr ⟨hs, hh, ?_⟩)⟩
    exact subset_refused_settle l m hm
  | bound a ha he h0 hc hr =>
    by_cases hb : a.handle ∈ m.activeNotifications
    · refine ⟨a, ?_, (describes_of_handle ha he h0).2 (.inl ⟨AList.mem_keys.1 hb, rfl⟩)⟩
      rw [getElem?_settle, if_neg]
      · exact hr
      · intro hmem
        exact ((mem_stranded hr).1 hmem).2 hb
    -- a sweep has taken it: the entry is amended and its handle released
    have hres : (l.settle m).results[idx]? = some (Locals.strandItem a) := by
      rw [getElem?_settle, if_pos ((mem_stranded hr).2 ⟨hc, hb⟩), hr]
      rfl
    refine ⟨_, hres, (describes_of_handle ha he h0).2 (.inr ⟨rfl, rfl, ?_⟩)⟩
    show (Locals.strandItem a).handle ∈ _
    exact mem_refused_settle hc hres rfl h0

theorem Filled.settle (h : Filled l) (hcomplete : Complete l) :
    Told (l.settle m) m.activeNotifications.keys (l.settle m).refused := by
  have hlen : (l.settle m).results.length = l.results.length := length_foldl_amend ..
  have hsent : ∀ (k : Nat) (info : SymbolInfo Name), l.infos[k]? = some info → _ :=
    fun k info hk => (h.noted k info hk).settle (m := m) (hcomplete k info hk)
  have hunsent := getElem?_settle l m
  rw [settle_eq] at hsent hunsent ⊢
  refine ⟨hlen.trans h.length, h.requests, fun j hj hne => ?_, fun k info hk =>
    ⟨h.config info (mem_of_getElem? hk), hsent k info hk⟩⟩
  obtain ⟨r, hr, hs⟩ := h.unsent j hj hne
  rw [hunsent j, hr]
  split
  · exact ⟨_, rfl, rfl⟩
  · exact ⟨r, rfl, hs⟩

end Settle

/-! ## The resolve loop -/

/-- The items are the PLC's answers, and then those that were abandoned. -/
def Reported (l : Locals Name) : Prop :=
  ∃ n, l.items = l.answers ++ replicate n Locals.abandoned

/-- What the loop has made of the configs from position `i` on. -/
structure Resolves (i : Nat) (configs : List (NotificationConfig Name))
    (r : List SumNotificationResult × List (SymbolInfo Name)) : Prop where
  length : r.1.length = configs.length
  sorted : r.2.Pairwise fun a b => a.configIndex < b.configIndex
  sent : ∀ info ∈ r.2, ∃ j, info.configIndex = i + j ∧ configs[j]? = some info.config ∧
    r.1[j]? = some {}
  unsent : ∀ j < configs.length, (∀ info ∈ r.2, info.configIndex ≠ i + j) →
    ∃ x, r.1[j]? = some x ∧ x.skipped.isSome = true

section Resolve

variable {i : Nat} {cfg : NotificationConfig Name} {configs : List (NotificationConfig Name)}
  {r : List SumNotificationResult × List (SymbolInfo Name)}

section

variable (h : Resolves (i + 1) configs r)

include h

theorem Resolves.sent_cons (x : SumNotificationResult) {info} (hinfo : info ∈ r.2) :
    ∃ j, info.configIndex = i + j ∧ (cfg :: configs)[j]? = some info.config ∧ (x :: r.1)[j]? = some {} := by
  obtain ⟨j, hidx, hcfg, hres⟩ := h.sent info hinfo
  exact ⟨j + 1, by omega, hcfg, hres⟩

theorem Resolves.unsent_cons (x : SumNotificationResult) {j}
    (hj : j < configs.length) (hne : ∀ info ∈ r.2, info.configIndex ≠ i + (j + 1)) :
    ∃ y, (x :: r.1)[j + 1]? = some y ∧ y.skipped.isSome = true := by
  rw [getElem?_cons_succ]
  apply h.unsent j hj
  intro info hinfo heq
  exact hne info hinfo (by omega)

theorem Resolves.skip {x} (hx : x.skipped.isSome = true) : Resolves i (cfg :: configs) (x :: r.1, r.2) where
  length := by rw [length_cons, length_cons, h.length]
  sorted := h.sorted
  sent _ hinfo := h.sent_cons x hinfo
  unsent j hj hne := by
    cases j with
    | zero => exact ⟨x, rfl, hx⟩
    | succ => exact h.unsent_cons x (Nat.lt_of_succ_lt_succ hj) hne

theorem Resolves.send (symbol : SymbolRef) :
    Resolves i (cfg :: configs) ({} :: r.1, ⟨i, cfg, symbol⟩ :: r.2) where
  length := by rw [length_cons, length_cons, h.length]
  sorted := by
    refine pairwise_cons.2 ⟨fun info hinfo => ?_, h.sorted⟩
    obtain ⟨j, hidx, -⟩ := h.sent info hinfo
    show i < info.configIndex
    omega
  sent info hinfo := by
    rcases mem_cons.1 hinfo with rfl | hinfo
    · exact ⟨0, rfl, rfl, rfl⟩
    · exact h.sent_cons {} hinfo
  unsent j hj hne := by
    cases j with
    | zero => exact absurd rfl (hne _ mem_cons_self)
    | succ =>
      exact h.unsent_cons {} (Nat.lt_of_succ_lt_succ hj) fun info hinfo =>
        hne info (mem_cons_of_mem _ hinfo)

end

variable [DecidableEq Key] (C : Casing Name Key)

theorem resolves_resolveLoop (existing : Finset Key) (getSymbol : Name → Option SymbolRef)
    (i : Nat) (batchSeen : Finset Key) (configs : List (NotificationConfig Name)) :
    Resolves i configs (resolveLoop C existing getSymbol i batchSeen configs) := by
  induction configs generalizing i batchSeen with
  | nil =>
    exact ⟨rfl, Pairwise.nil, fun _ hinfo => absurd hinfo not_mem_nil,
      fun j hj => absurd hj (Nat.not_lt_zero j)⟩
  | cons cfg rest ih =>
    simp only [resolveLoop]
    split
    · exact (ih (i + 1) batchSeen).skip rfl
    split
    · exact (ih (i + 1) _).skip rfl
    · exact (ih (i + 1) _).send _

theorem resolveLoop_unresolved (existing : Finset Key) (i : Nat) (batchSeen : Finset Key)
    (configs : List (NotificationConfig Name)) :
    (resolveLoop C existing (fun _ => none) i batchSeen configs).2 = [] := by
  induction configs generalizing i batchSeen with
  | nil => rfl
  | cons cfg rest ih =>
    simp only [resolveLoop]
    split
    · exact ih ..
    · exact ih ..

theorem Resolves.filled (h : Resolves 0 configs r) (ch : Option Chan) (epoch : Nat) :
    Filled (⟨configs, ch, r.1, r.2, r.2.map SymbolInfo.request, epoch, [], [], [], []⟩ : Locals Name) where
  length := h.length
  sorted := h.sorted
  config info hinfo := by
    obtain ⟨j, hidx, hcfg, -⟩ := h.sent info hinfo
    rw [hidx, Nat.zero_add]
    exact hcfg
  requests := rfl
  unsent j hj hne := by
    apply h.unsent j hj
    rw [Nat.zero_add]
    exact hne
  noted k info hk := by
    obtain ⟨j, hidx, -, hres⟩ := h.sent info (mem_of_getElem? hk)
    refine .waiting not_mem_nil ?_
    rw [hidx, Nat.zero_add]
    exact hres

end Resolve

/-! ## Runs -/

/-- The answers that are not passed on yet. -/
def Path.rest : Path → List SumNotificationResult
  | .sum rest => rest
  | .adds => []

/-- On the sum path every request is answered. -/
def Path.Fits (l : Locals Name) : Path → Prop
  | .sum _ => l.answers.length = l.infos.length
  | .adds => True

/-- **The invariant**, by what the batch is at. -/
def Inv (configs : List (NotificationConfig Name)) (w : World Name Key) : Pc Name Key → Prop
  | .check cs _ | .resolve cs _ _ => cs = configs
  | .client l =>
    Filled l ∧ l.configs = configs ∧ l.answers = [] ∧ l.items = [] ∧ w.client = true
  | .request l => Filled l ∧ l.configs = configs ∧ l.answers = [] ∧ l.items = []
  | .report l path i =>
    Filled l ∧ l.configs = configs ∧ l.items.length = i ∧ path.Fits l ∧
      l.answers = l.items ++ path.rest
  | .commit l path i info r _ =>
    Filled l ∧ l.configs = configs ∧ l.items.length = i ∧ path.Fits l ∧
      l.answers = l.items ++ r :: path.rest ∧
      l.infos[i]? = some info ∧ r.skipped = none ∧ r.error = noErrors ∧ r.handle ≠ 0
  | .settle l _ => Filled l ∧ l.configs = configs ∧ Reported l ∧ Complete l
  | .release l _ bound => Told l bound l.refused ∧ l.configs = configs ∧ Reported l
  | .returned l _ bound released => Told l bound released ∧ l.configs = configs ∧ Reported l
  | .noResults _ => True

section Steps

variable [DecidableEq Key] {C : Casing Name Key} {configs : List (NotificationConfig Name)}
  {w : World Name Key} {l : Locals Name} {path : Path}

variable {pc : Pc Name Key} {r : SumNotificationResult}

omit [DecidableEq Key] in
theorem inv_onItem (h : Filled l) (hconfigs : l.configs = configs) (hlt : l.items.length < l.infos.length)
    (hfits : path.Fits l) (hanswers : l.answers = l.items ++ r :: path.rest) :
    Inv configs w (onItem C w.shared l path l.items.length r) := by
  have hinfo := getElem?_eq_getElem hlt
  have hitems : (l.items ++ [r]).length = l.items.length + 1 := by simp
  have hrest : l.answers = (l.items ++ [r]) ++ path.rest := by
    rw [append_assoc]
    exact hanswers
  have hfits' : ∀ l' : Locals Name, l'.answers = l.answers → l'.infos = l.infos → path.Fits l' := by
    intro l' ha hi
    cases path with
    | sum =>
      show l'.answers.length = l'.infos.length
      rw [ha, hi]
      exact hfits
    | adds => trivial
  unfold onItem
  rw [hinfo]
  dsimp only
  split
  · next hs =>
    unfold Locals.skipItem
    rw [hinfo]
    exact ⟨h.keep hinfo (.inl hs), hconfigs, hitems, hfits' _ rfl rfl, hrest⟩
  next hs =>
  have hskip : r.skipped = none := by simpa using hs
  split
  · next hzero =>
    exact ⟨h.zero hinfo hskip hzero.2 hzero.1 rfl, hconfigs, hitems, hfits' _ rfl rfl, hrest⟩
  next hzero =>
  split
  · next he => exact ⟨h.keep hinfo (.inr he), hconfigs, hitems, hfits' _ rfl rfl, hrest⟩
  next he =>
  have hok : r.error = noErrors := not_not.1 he
  exact ⟨h, hconfigs, rfl, hfits, hanswers, hinfo, hskip, hok, fun h0 => hzero ⟨h0, hok⟩⟩

theorem inv_commit (h : Filled l) (hconfigs : l.configs = configs) {info fresh}
    (hinfo : l.infos[l.items.length]? = some info)
    (hs : r.skipped = none) (he : r.error = noErrors) (h0 : r.handle ≠ 0)
    (hfits : path.Fits l) (hanswers : l.answers = l.items ++ r :: path.rest) :
    Inv configs w (.report (commit C w.shared l info r fresh).1 path (l.items.length + 1)) := by
  have hitems : (l.items ++ [r]).length = l.items.length + 1 := by simp
  have hrest : l.answers = (l.items ++ [r]) ++ path.rest := by
    rw [append_assoc]
    exact hanswers
  unfold commit
  split
  · refine ⟨h.refuse hinfo hs he h0 rfl rfl, hconfigs, hitems, ?_, hrest⟩
    cases path <;> exact hfits
  · refine ⟨h.commit hinfo hs he h0, hconfigs, hitems, ?_, hrest⟩
    cases path <;> exact hfits

omit [DecidableEq Key] in
/-- Of the world the invariant needs only the client, which stays. -/
theorem Inv.world {w'} (h : Inv configs w pc)
    (hclient : w.client = true → w'.client = true) : Inv configs w' pc := by
  cases pc with
  | client => exact ⟨h.1, h.2.1, h.2.2.1, h.2.2.2.1, hclient h.2.2.2.2⟩
  | check | resolve | request | report | commit | settle | release | returned | noResults => exact h

omit [DecidableEq Key] in
theorem length_requests (h : Filled l) : l.requests.length = l.infos.length := by
  rw [h.requests, length_map]

omit [DecidableEq Key] in
/-- After the resolve loop: requests are sent only with a client. -/
theorem inv_resolve {r ch epoch} (h : Resolves 0 configs r) (hclient : w.client = false → r.2 = []) :
    Inv configs w
      (if r.2.isEmpty then
        .returned ⟨configs, ch, r.1, r.2, r.2.map SymbolInfo.request, epoch, [], [], [], []⟩ false [] []
      else .client ⟨configs, ch, r.1, r.2, r.2.map SymbolInfo.request, epoch, [], [], [], []⟩) := by
  have hfilled := h.filled ch epoch
  by_cases hempty : r.2 = []
  · rw [if_pos (List.isEmpty_iff.2 hempty)]
    refine ⟨⟨hfilled.length, hfilled.requests, hfilled.unsent, fun k info hk => ?_⟩, rfl, 0, rfl⟩
    have hnone : ([] : List (SymbolInfo Name))[k]? = some info := hempty ▸ hk
    cases hnone
  rw [if_neg fun he => hempty (List.isEmpty_iff.1 he)]
  refine ⟨hfilled, rfl, rfl, rfl, ?_⟩
  cases hc : w.client with
  | true => rfl
  | false => exact absurd (hclient hc) hempty

theorem Inv.act {pc' a sec} (h : Inv configs w pc)
    (hact : act C w pc a = some (pc', sec)) : Inv configs w pc' := by
  cases pc with
  | check cs ch =>
    cases a with
    | check gate =>
      simp only [Indexed.act] at hact
      split at hact
      · cases hact
        trivial
      split at hact
      · cases hact
        trivial
      split at hact <;> cases hact
      · trivial
      · exact h
    | _ => cases hact
  | resolve cs =>
    cases a with
    | resolve =>
      obtain rfl : cs = configs := h
      cases hact
      apply inv_resolve (resolves_resolveLoop ..)
      intro hclient
      rw [hclient]
      exact resolveLoop_unresolved ..
    | _ => cases hact
  | client =>
    cases a with
    | client =>
      obtain ⟨hl, hconfigs, hanswers, hitems, hclient⟩ := h
      cases hact
      rw [if_pos hclient]
      exact ⟨hl, hconfigs, hanswers, hitems⟩
    | _ => cases hact
  | request l =>
    obtain ⟨hl, hconfigs, hanswers, hitems⟩ := h
    cases a with
    | sum answers =>
      simp only [Indexed.act] at hact
      split at hact <;> cases hact
      next hlen =>
      refine ⟨hl.answer _, hconfigs, by rw [hitems]; rfl, ?_, by rw [hitems]; rfl⟩
      show (answers.map _).length = l.infos.length
      rw [length_map, hlen, length_requests hl]
    | fallback =>
      cases hact
      exact ⟨hl, hconfigs, by rw [hitems]; rfl, trivial, by rw [hanswers, hitems]; rfl⟩
    | fail =>
      cases hact
      obtain ⟨hmarked, hsame, hanswers', hitems', hcomplete⟩ := hl.markAborted
      refine ⟨hmarked, hsame.trans hconfigs, ⟨0, ?_⟩, hcomplete⟩
      rw [hitems', hanswers', hitems, hanswers]
      rfl
    | _ => cases hact
  | report l path i =>
    obtain ⟨hl, hconfigs, rfl, hfits, hanswers⟩ := h
    have hreq := length_requests hl
    cases path with
    | sum rest =>
      have hlen : l.answers.length = l.infos.length := hfits
      cases rest with
      | nil =>
        cases a <;> cases hact
        have hsame : l.answers = l.items := hanswers.trans (append_nil _)
        refine ⟨hl, hconfigs, ⟨0, hsame.symm.trans (append_nil _).symm⟩, ?_⟩
        apply complete_of_length
        rw [← hsame, hlen]
      | cons r rest =>
        cases a <;> cases hact
        have hcount : l.answers.length = l.items.length + (rest.length + 1) := by
          rw [hanswers]
          exact length_append
        have hfits' : (Path.sum rest).Fits l := hlen
        exact inv_onItem hl hconfigs (by omega) hfits' hanswers
    | adds =>
      have hsame : l.answers = l.items := hanswers.trans (append_nil _)
      cases a with
      | added answer =>
        simp only [Indexed.act] at hact
        split at hact <;> cases hact
        next hlt =>
        have hfits' : Path.adds.Fits { l with answers := l.answers ++ [notificationResult answer] } :=
          trivial
        have hfilled := hl.answer (l.answers ++ [notificationResult answer])
        refine inv_onItem hfilled hconfigs (hreq ▸ hlt) hfits' ?_
        show l.answers ++ [notificationResult answer] = l.items ++ [notificationResult answer]
        rw [hsame]
      | abort =>
        simp only [Indexed.act] at hact
        split at hact <;> cases hact
        next hlt =>
        obtain ⟨haborted, hconfigs', hanswers', hitems'⟩ := hl.abortFrom hlt
        obtain ⟨hmarked, hconfigs'', hanswers'', hitems'', hcomplete⟩ := haborted.markAborted
        refine ⟨hmarked, (hconfigs''.trans hconfigs').trans hconfigs,
          ⟨l.requests.length - l.items.length, ?_⟩, hcomplete⟩
        rw [hitems'', hitems', hanswers'', hanswers', hsame]
      | finish =>
        simp only [Indexed.act] at hact
        split at hact <;> cases hact
        next hge =>
        refine ⟨hl, hconfigs, ⟨0, hsame.symm.trans (append_nil _).symm⟩, ?_⟩
        apply complete_of_length
        omega
      | _ => cases hact
  | commit =>
    obtain ⟨hl, hconfigs, rfl, hfits, hanswers, hinfo, hs, he, h0⟩ := h
    cases a <;> cases hact
    exact inv_commit hl hconfigs hinfo hs he h0 hfits hanswers
  | settle l err =>
    obtain ⟨hl, hconfigs, hreported, hcomplete⟩ := h
    cases a <;> cases hact
    have htold := hl.settle (m := w.shared.notifications) hcomplete
    have hsame : (l.settle w.shared.notifications).configs = configs := by
      rw [settle_eq]
      exact hconfigs
    have hreported' : Reported (l.settle w.shared.notifications) := by
      rw [settle_eq]
      exact hreported
    split
    · next hempty =>
      rw [List.isEmpty_iff.1 hempty] at htold
      exact ⟨htold, hsame, hreported'⟩
    · exact ⟨htold, hsame, hreported'⟩
  | release =>
    cases a <;> cases hact
    exact h
  | returned | noResults => cases hact

theorem Inv.step {s s' x} (h : Inv configs s.world s.pc)
    (hs : step C s x = some s') : Inv configs s'.world s'.pc := by
  cases x with
  | own =>
    simp only [Indexed.step, Option.map_eq_some_iff] at hs
    obtain ⟨⟨pc', sec⟩, hact, rfl⟩ := hs
    exact (h.act hact).world id
  | others =>
    cases hs
    exact h.world id
  | connect =>
    cases hs
    exact h.world fun _ => rfl

end Steps

section Returned

variable [DecidableEq Key] {C : Casing Name Key} {configs : List (NotificationConfig Name)}

/-- **A batch subscribe leaks no handle and reports truthfully**, whatever the other goroutines do
    meanwhile.  There is one result per config; `onItem` has got the PLC's answers in the order of the
    requests, and what is missing as abandoned; the result of a config whose request was sent says what
    became of that request; every other config is skipped; and an entry that reads as a success was bound
    when `settle` looked. -/
theorem batch_truthful {w : World Name Key} {ch : Option Chan} {s : State Name Key} {l : Locals Name}
    {err : Bool} {bound released : List Handle} (h : Run (step C) anyStep (init w configs ch) s)
    (hret : s.pc = .returned l err bound released) :
    l.results.length = configs.length ∧ l.requests = l.infos.map SymbolInfo.request ∧ Reported l ∧
    (∀ (i : Nat) (cfg : NotificationConfig Name), configs[i]? = some cfg →
      ∃ r : SumNotificationResult, l.results[i]? = some r ∧
        ((r.skipped.isSome = true ∧ ∀ info ∈ l.infos, info.configIndex ≠ i) ∨
          ∃ (k : Nat) (info : SymbolInfo Name), l.infos[k]? = some info ∧ info.configIndex = i ∧
            info.config = cfg ∧ Describes l.items[k]? r bound released)) ∧
    ∀ (i : Nat) (r : SumNotificationResult), l.results[i]? = some r → r.skipped = none →
      r.error = noErrors → r.handle ∈ bound := by
  have hinv : Inv configs s.world s.pc := by
    have hinit : Inv configs w (.check configs ch) := by
      show configs = configs
      rfl
    refine h.invariant (P := fun s => Inv configs s.world s.pc) hinit ?_
    intro s x s' hi _ hs
    exact hi.step hs
  rw [hret] at hinv
  obtain ⟨htold, rfl, hreported⟩ := hinv
  -- the last part is read off the results of the configs
  refine ⟨htold.length, htold.requests, hreported, (fun hcase => ⟨hcase, fun i r hr hs he => ?_⟩) ?_⟩
  · intro i cfg hcfg
    obtain ⟨hi, -⟩ := List.getElem?_eq_some_iff.1 hcfg
    by_cases hsent : ∃ info ∈ l.infos, info.configIndex = i
    · obtain ⟨info, hinfo, rfl⟩ := hsent
      obtain ⟨k, hk⟩ := mem_iff_getElem?.1 hinfo
      obtain ⟨hconfig, r, hr, hdesc⟩ := htold.sent k info hk
      rw [hconfig] at hcfg
      exact ⟨r, hr, .inr ⟨k, info, hk, rfl, Option.some.inj hcfg, hdesc⟩⟩
    have hne : ∀ info ∈ l.infos, info.configIndex ≠ i := fun info hinfo heq =>
      hsent ⟨info, hinfo, heq⟩
    obtain ⟨r, hr, hs⟩ := htold.unsent i hi hne
    exact ⟨r, hr, .inl ⟨hs, hne⟩⟩
  have hi : i < l.configs.length := htold.length ▸ (List.getElem?_eq_some_iff.1 hr).1
  obtain ⟨r', hr', hdone⟩ := hcase i _ (getElem?_eq_getElem hi)
  rw [hr] at hr'
  cases hr'
  rcases hdone with ⟨hskip, -⟩ | ⟨k, info, -, -, -, hdesc⟩
  · rw [hs] at hskip
    cases hskip
  · exact hdesc.mem_bound hs he

/-- Names that are numbers, compared as they are. -/
def numbers : Casing Nat Nat := ⟨id, fun a b => a == b⟩

/-- A subscribe of one symbol, on change. -/
def onChange (name : Nat) : NotificationConfig Nat := ⟨name, 0, 0, .serverOnChange⟩

/-- A session whose cache has every symbol, with nothing bound. -/
def nothingBound : Shared Nat Nat := ⟨Manager.empty, some, ∅, 0, none⟩

/-- Three configs, the second a duplicate of the first, on the fallback: the first Add is bound and swept,
    the other is bound.  The first two are reported skipped, and the handle of the first is released. -/
theorem batch_truthful_swept : ∃ s l, Run (step numbers) anyStep
        (init ⟨nothingBound, true⟩ [onChange 1, onChange 1, onChange 2] (some 0)) s ∧
      s.pc = .returned l false [8] [7] ∧ l.results.length = 3 ∧ (l.result 0).handle = 7 ∧
      (l.result 2).handle = 8 ∧
      ∀ (i : Nat) (r : SumNotificationResult), l.results[i]? = some r → r.skipped = none →
        r.error = noErrors → r.handle ∈ [8] := by
  obtain ⟨s, hrun, hp⟩ := exists_run (step numbers) anyStep
    (init ⟨nothingBound, true⟩ [onChange 1, onChange 1, onChange 2] (some 0))
    (fun s => (match s.pc with
      | .returned l err bound released =>
        decide (err = false ∧ bound = [8] ∧ released = [7] ∧ (l.result 0).handle = 7 ∧ (l.result 2).handle = 8)
      | _ => false) = true)
    [.own (.check true), .own (.resolve fun _ => some ⟨1, 2, 0⟩), .own .client, .own .fallback,
      .own (.added (.ok 7)), .own .commit, .others nothingBound, .own (.added (.ok 8)), .own .commit,
      .own .finish, .own .settle, .own (.release [0])]
    (by decide +kernel)
  cases hpc : s.pc with
  | returned l =>
    rw [hpc] at hp
    simp only [decide_eq_true_eq] at hp
    obtain ⟨rfl, rfl, rfl, hfirst, hlast⟩ := hp
    have htruth := batch_truthful hrun hpc
    exact ⟨s, l, hrun, hpc, htruth.1, hfirst, hlast, htruth.2.2.2.2⟩
  | check | resolve | client | request | report | commit | settle | release | noResults =>
    rw [hpc] at hp
    cases hp

end Returned

end GoAds.Notification.Indexed
