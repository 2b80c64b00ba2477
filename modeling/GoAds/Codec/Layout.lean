import Mathlib.Data.List.Nodup
import Mathlib.Data.List.Forall2
import GoAds.Codec.Leaves

/-!
# `Codec.Layout` — trees of symbols and their members

The shape a tree of symbols has to have so that its bytes can be read and written back: the leaves are
of types that lose nothing, and the members of a struct lie side by side and are found under their own
names.  The one thing names must not do is to look like the JSON key of a sibling, since `writeToNode`
looks a member up under its plain name first.
-/

namespace GoAds.Codec

open List

/-! ## Trees -/

variable (info : Info) (data : Bytes)

/-- The bytes of a node inside its parent's. -/
def Info.window : Bytes :=
  (data.drop info.offset.toNat).take info.length.toNat

/-- The bytes from `start` on that a struct hands to its members, cut at the end of the data. -/
def Info.slice (start : Nat) : Bytes :=
  (data.drop start).take (min (start + info.length.toNat) data.length - start)

/-- The end of these bytes, as the source computes it. -/
theorem ite_stop {start length size : Nat} :
    (if start + length > size then size else start + length) = min (start + length) size := by
  split
  · omega
  · omega

/-- Two members share no byte. -/
def Info.Disjoint (a b : Info) : Prop :=
  a.offset.toNat + a.length.toNat ≤ b.offset.toNat ∨ b.offset.toNat + b.length.toNat ≤ a.offset.toNat

instance (a b : Info) : Decidable (a.Disjoint b) := inferInstanceAs (Decidable (_ ∨ _))

/-- No member has the name that is another's JSON key. -/
def NoClash (members : List Symbol) : Prop :=
  ∀ a ∈ members, ∀ b ∈ members, b.info.name = jsonKey a.info.name → b.info.name = a.info.name

instance (members : List Symbol) : Decidable (NoClash members) :=
  inferInstanceAs (Decidable (∀ a ∈ members, ∀ b ∈ members, _ → _))

/-- A tree of lossless leaves, whose members lie side by side inside their parent and are held under
    their names; `Names` is what else is asked of the names of siblings. -/
inductive WellFormed (Names : List Symbol → Prop) : Symbol → Prop
  | leaf {info : Info} {scalar : Scalar} (hname : Scalar.ofName info.dataType = some scalar)
      (hlossless : scalar.Lossless info.length.toNat) : WellFormed Names (.mk info [])
  | composite {info : Info} {cs : List Symbol} (hne : cs ≠ []) (hcs : ∀ c ∈ cs, WellFormed Names c)
      (hkeys : ∀ c ∈ cs, c.info.key = c.info.name) (hnames : (cs.map fun c => c.info.name).Nodup)
      (hinside : ∀ c ∈ cs, c.info.offset.toNat + c.info.length.toNat ≤ info.length.toNat)
      (hdisjoint : cs.Pairwise fun a b => a.info.Disjoint b.info) (hclash : Names cs) :
      WellFormed Names (.mk info cs)

/-- What the bytes of a node hold at its leaves. -/
inductive Holds : Symbol → Bytes → Prop
  | leaf {info : Info} {scalar : Scalar} {raw : Bytes}
      (hname : Scalar.ofName info.dataType = some scalar) (h : scalar.Holds raw) :
      Holds (.mk info []) raw
  | composite {info : Info} {cs : List Symbol} {data : Bytes} (hne : cs ≠ [])
      (h : ∀ c ∈ cs, Holds c (c.info.window data)) : Holds (.mk info cs) data

/-- Byte `k` of the node belongs to a leaf. -/
inductive Covered : Symbol → Nat → Prop
  | leaf {info : Info} {k : Nat} (h : k < info.length.toNat) : Covered (.mk info []) k
  | member {info : Info} {cs : List Symbol} {c : Symbol} {k : Nat} (hc : c ∈ cs) (h : Covered c k) :
      Covered (.mk info cs) (c.info.offset.toNat + k)

theorem Symbol.induction {P : Symbol → Prop} (node : ∀ info cs, (∀ c ∈ cs, P c) → P (.mk info cs)) :
    ∀ s, P s
  | .mk info cs => node info cs fun c _ => Symbol.induction node c

/-- The same tree, with any values in its nodes and ranged over in any order. -/
inductive Reordered : Symbol → Symbol → Prop
  | node {info : Info} {text : Text} {cs ds ds' : List Symbol}
      (hmembers : Forall₂ Reordered cs ds') (horder : ds'.Perm ds) :
      Reordered (.mk info cs) (.mk (info.updateValue text) ds)

theorem covered_lt {Names : List Symbol → Prop} {s} (hs : WellFormed Names s) {k}
    (h : Covered s k) : k < s.info.length.toNat := by
  induction hs generalizing k with
  | leaf =>
    cases h with
    | leaf h => exact h
    | member hc => cases hc
  | @composite info cs hne hcs hkeys hnames hinside hdisjoint hclash ih =>
    cases h with
    | leaf => exact absurd rfl hne
    | @member _ _ c k hc h =>
      have hk := ih c hc h
      have hin := hinside c hc
      show c.info.offset.toNat + k < info.length.toNat
      omega

theorem Info.getElem?_window {k} (hk : k < info.length.toNat) :
    (info.window data)[k]? = data[info.offset.toNat + k]? := by
  rw [Info.window, getElem?_take_of_lt hk, getElem?_drop]

/-! ## Orders of one tree -/

theorem forall₂_mem_left {α β : Type} {R : α → β → Prop} {as bs}
    (h : Forall₂ R as bs) : ∀ a ∈ as, ∃ b ∈ bs, R a b := by
  induction h with
  | nil => exact fun a ha => absurd ha not_mem_nil
  | @cons a b as bs hab _ ih =>
    intro x hx
    rcases mem_cons.1 hx with rfl | hx
    · exact ⟨b, mem_cons_self .., hab⟩
    · obtain ⟨y, hy, hxy⟩ := ih x hx
      exact ⟨y, mem_cons_of_mem b hy, hxy⟩

theorem forall₂_mem_right {α β : Type} {R : α → β → Prop} {as bs}
    (h : Forall₂ R as bs) : ∀ b ∈ bs, ∃ a ∈ as, R a b :=
  forall₂_mem_left h.flip

theorem Reordered.info_eq {s t} (h : Reordered s t) :
    ∃ text, t.info = s.info.updateValue text := by
  cases h with
  | node => exact ⟨_, rfl⟩

theorem Reordered.disjoint {a b a' b'} (ha : Reordered a a') (hb : Reordered b b')
    (h : a.info.Disjoint b.info) : a'.info.Disjoint b'.info := by
  obtain ⟨_, ha'⟩ := ha.info_eq
  obtain ⟨_, hb'⟩ := hb.info_eq
  rw [ha', hb']
  exact h

theorem pairwise_disjoint_of_forall₂ {cs ds} (h : Forall₂ Reordered cs ds)
    (hcs : cs.Pairwise fun a b => a.info.Disjoint b.info) :
    ds.Pairwise fun a b => a.info.Disjoint b.info := by
  induction h with
  | nil => exact .nil
  | @cons c d cs ds hcd hrest ih =>
    obtain ⟨hfirst, htail⟩ := pairwise_cons.1 hcs
    -- the head is apart from the rest because their originals are
    refine pairwise_cons.2 ⟨?_, ih htail⟩
    intro d' hd'
    obtain ⟨c', hc', hcd'⟩ := forall₂_mem_right hrest d' hd'
    exact hcd.disjoint hcd' (hfirst c' hc')

/-- **The members in another order**: each is one of the tree's, none is missing, and they still lie
    side by side. -/
theorem Reordered.members {info cs t} (h : Reordered (.mk info cs) t) :
    ∃ text ds, t = .mk (info.updateValue text) ds ∧ (∀ c ∈ cs, ∃ d ∈ ds, Reordered c d) ∧
      (∀ d ∈ ds, ∃ c ∈ cs, Reordered c d) ∧
      ((cs.Pairwise fun a b => a.info.Disjoint b.info) →
        ds.Pairwise fun a b => a.info.Disjoint b.info) := by
  cases h with
  | @node _ text _ ds ds' hmembers horder =>
    refine ⟨text, ds, rfl, ?_, ?_, ?_⟩
    · intro c hc
      obtain ⟨d, hd, hcd⟩ := forall₂_mem_left hmembers c hc
      exact ⟨d, horder.mem_iff.1 hd, hcd⟩
    · intro d hd
      exact forall₂_mem_right hmembers d (horder.mem_iff.2 hd)
    intro hdisjoint
    refine (horder.pairwise_iff ?_).1 (pairwise_disjoint_of_forall₂ hmembers hdisjoint)
    exact fun hab => Or.symm hab

/-! ## Keys -/

/-- A replacement can be undone if its text is never mistaken for another character and what follows. -/
theorem replaceAll_injective {c w} (hw : w ≠ [])
    (hmix : ∀ d s t, d ≠ c → w ++ replaceAll c w s ≠ d :: replaceAll c w t) :
    Function.Injective (replaceAll c w) := by
  have hstep : ∀ d s, replaceAll c w (d :: s) = (if d = c then w else [d]) ++ replaceAll c w s :=
    fun d s => flatMap_cons
  have hword : ∀ d s, replaceAll c w (d :: s) ≠ [] := by
    intro d s h
    rw [hstep, append_eq_nil_iff] at h
    split at h
    · exact hw h.1
    · exact cons_ne_nil _ _ h.1
  intro s
  induction s with
  | nil =>
    intro t h
    cases t with
    | nil => rfl
    | cons d t => exact absurd h.symm (hword d t)
  | cons d s ih =>
    intro t h
    cases t with
    | nil => exact absurd h (hword d s)
    | cons e t =>
      rw [hstep, hstep] at h
      -- the two texts begin with a replacement or with the character itself
      by_cases hd : d = c
      · by_cases he : e = c
        · rw [if_pos hd, if_pos he] at h
          rw [hd, he, ih (append_cancel_left h)]
        · rw [if_pos hd, if_neg he] at h
          exact absurd h (hmix e s t he)
      by_cases he : e = c
      · rw [if_neg hd, if_pos he] at h
        exact absurd h.symm (hmix d t s hd)
      rw [if_neg hd, if_neg he] at h
      obtain ⟨rfl, hrest⟩ := cons.inj h
      rw [ih hrest]

/-- Behind the replacement a bracket always has its quote in front. -/
theorem head_replaceAll (s rest : List Char) : replaceAll '[' ['"', '['] s ≠ '[' :: rest := by
  cases s with
  | nil => exact (cons_ne_nil _ _).symm
  | cons c s =>
    intro h
    unfold replaceAll at h
    rw [flatMap_cons] at h
    split at h
    · exact absurd (cons.inj h).1 (by decide)
    · next hc => exact hc (cons.inj h).1

theorem jsonKey_injective : Function.Injective jsonKey := by
  intro a b h
  have hopen : Function.Injective (replaceAll '[' ['"', '[']) := by
    refine replaceAll_injective (cons_ne_nil _ _) ?_
    intro d s t _ h
    exact head_replaceAll t _ (cons.inj h).2.symm
  have hclose : Function.Injective (replaceAll ']' [']', '"']) := by
    refine replaceAll_injective (cons_ne_nil _ _) ?_
    intro d s t hd h
    exact hd (cons.inj h).1.symm
  exact String.toList_injective (hopen (hclose (String.ofList_injective h)))

/-! ## The fields of a struct -/

variable {go : Go}

/-- The fields of a JSON object. -/
def jsonFields (go : Go) (cs : List Symbol) : List (String × Json) :=
  cs.map fun c => (jsonKey c.info.name, c.parseTree go)

theorem lookup_jsonFields_none {cs key}
    (h : ∀ c ∈ cs, jsonKey c.info.name ≠ key) : (jsonFields go cs).lookup key = none := by
  rw [lookup_eq_none_iff]
  intro f hf
  obtain ⟨c, hc, rfl⟩ := mem_map.1 hf
  rw [bne_iff_ne]
  exact fun heq => h c hc heq.symm

theorem lookup_jsonFields {cs} (hnames : (cs.map fun c => c.info.name).Nodup)
    {c} (hc : c ∈ cs) :
    (jsonFields go cs).lookup (jsonKey c.info.name) = some (c.parseTree go) := by
  induction cs with
  | nil => cases hc
  | cons d cs ih =>
    obtain ⟨hd, hnodup⟩ := nodup_cons.1 hnames
    rw [jsonFields, map_cons, lookup_cons]
    rcases mem_cons.1 hc with rfl | hc
    · rw [beq_self_eq_true]
    have hne : (jsonKey c.info.name == jsonKey d.info.name) = false := by
      rw [beq_eq_false_iff_ne]
      intro heq
      exact hd (mem_map.2 ⟨c, hc, jsonKey_injective heq⟩)
    rw [hne]
    exact ih hnodup hc

theorem parseTrees_eq {cs} (hnames : (cs.map fun c => c.info.name).Nodup) :
    parseTrees go cs = jsonFields go cs := by
  induction cs with
  | nil =>
    rw [parseTrees]
    rfl
  | cons c cs ih =>
    obtain ⟨hc, hnodup⟩ := nodup_cons.1 hnames
    have hnone : (jsonFields go cs).lookup (jsonKey c.info.name) = none := by
      apply lookup_jsonFields_none
      intro d hd heq
      exact hc (mem_map.2 ⟨d, hd, jsonKey_injective heq⟩)
    rw [parseTrees, ih hnodup, setField, hnone]
    rfl

theorem nodup_keys {cs} (hnames : (cs.map fun c => c.info.name).Nodup) :
    ((jsonFields go cs).map Prod.fst).Nodup := by
  have h : (jsonFields go cs).map Prod.fst = (cs.map fun c => c.info.name).map jsonKey := by
    rw [jsonFields, map_map, map_map]
    rfl
  rw [h]
  exact hnames.map jsonKey_injective

/-- **A member is found under its own field**: no sibling's key is its name. -/
theorem fieldOf_member {cs raws c raw}
    (hnames : (cs.map fun c => c.info.name).Nodup) (hclash : NoClash cs) (hc : c ∈ cs)
    (hraws : ∀ k, raws.lookup k = ((jsonFields go cs).lookup k).bind go.marshal)
    (hraw : go.marshal (c.parseTree go) = some raw) : fieldOf raws c.info.name = some raw := by
  have hown : raws.lookup (jsonKey c.info.name) = some raw := by
    rw [hraws, lookup_jsonFields hnames hc]
    exact hraw
  unfold fieldOf
  -- the plain name is tried first: it must not be the key of another
  by_cases hplain : ∃ a ∈ cs, jsonKey a.info.name = c.info.name
  · -- then the member's name is its own key
    obtain ⟨a, ha, heq⟩ := hplain
    have hname := hclash a ha c hc heq.symm
    have hkey : jsonKey c.info.name = c.info.name := by
      rw [hname] at heq ⊢
      exact heq
    rw [hkey] at hown
    rw [hown]
    rfl
  · have hnone : raws.lookup c.info.name = none := by
      rw [hraws, lookup_jsonFields_none]
      · rfl
      · exact fun a ha heq => hplain ⟨a, ha, heq⟩
    rw [hnone, hown]
    rfl

end GoAds.Codec
