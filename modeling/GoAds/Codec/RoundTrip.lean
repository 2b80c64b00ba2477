import GoAds.Codec.Layout
import GoAds.Codec.JsonText

/-!
# `Codec.RoundTrip` — writing back what was read

A well-formed tree, read from a buffer and written back, gives the bytes of its leaves again and zeros
elsewhere, whatever the order in which `Children` is ranged over.
-/

namespace GoAds.Codec

open List

variable {go : Go} {datatypes : DataTypes}

/-- What is written for a node whose bytes are `raw`: its leaves' bytes, and zeros. -/
structure Written (s : Symbol) (raw buf : Bytes) : Prop where
  length : buf.length = s.info.length.toNat
  covered : ∀ k, Covered s k → buf[k]? = raw[k]?
  uncovered : ∀ k < s.info.length.toNat, ¬ Covered s k → buf[k]? = some 0

/-! ## Bytes in place -/

section Copy

variable {buf src : Bytes} {lo hi : Nat}

theorem copyInto_eq (hsrc : src.length = hi - lo) (hlo : lo ≤ hi) :
    copyInto buf lo hi src = buf.take lo ++ (src ++ buf.drop hi) := by
  have hmin : min (hi - lo) src.length = src.length := by omega
  have hend : lo + src.length = hi := by omega
  unfold copyInto
  dsimp only
  rw [hmin, take_length, hend, append_assoc]

variable (hsrc : src.length = hi - lo) (hlo : lo ≤ hi) (hhi : hi ≤ buf.length)

include hsrc hlo hhi

theorem length_copyInto : (copyInto buf lo hi src).length = buf.length := by
  rw [copyInto_eq hsrc hlo, length_append, length_append, length_take, length_drop]
  omega

theorem getElem?_copyInto_inside {k} (hk : k < src.length) :
    (copyInto buf lo hi src)[lo + k]? = src[k]? := by
  have htake : (buf.take lo).length = lo := length_take_of_le (by omega)
  rw [copyInto_eq hsrc hlo, getElem?_append_right (by omega), htake, Nat.add_sub_cancel_left,
    getElem?_append_left hk]

theorem getElem?_copyInto_outside {j} (hj : j < lo ∨ hi ≤ j) :
    (copyInto buf lo hi src)[j]? = buf[j]? := by
  have htake : (buf.take lo).length = lo := length_take_of_le (by omega)
  rw [copyInto_eq hsrc hlo]
  rcases hj with hj | hj
  · rw [getElem?_append_left (by omega), getElem?_take_of_lt hj]
  have hindex : hi + (j - lo - src.length) = j := by omega
  rw [getElem?_append_right (by omega), htake, getElem?_append_right (by omega), getElem?_drop, hindex]

end Copy

/-- What `writeToNode` writes for a member, given the fields of the object. -/
def memberBytes (go : Go) (datatypes : DataTypes) (fields : List (String × Text)) (d : Symbol) :
    Option Bytes :=
  (fieldOf fields d.info.key).bind fun raw =>
    (childValue go raw).bind fun value => (d.writeToNode go datatypes value).toOption

variable {data : Bytes} {info : Info} {fields : List (String × Text)} {cs : List Symbol} {start : Nat}

/-- A symbol with members is written by the loop over them, from a buffer of zeros. -/
theorem writeToNode_composite {text}
    (hne : cs ≠ []) (hfields : go.unmarshalFields text = some fields) :
    (Symbol.mk info cs).writeToNode go datatypes text =
      writeChildren go datatypes fields cs (replicate info.length.toNat 0) := by
  obtain ⟨c, cs, rfl⟩ := exists_cons_of_ne_nil hne
  rw [Symbol.writeToNode, hfields]

theorem writeChildren_cons {d ds buf bytes} (hbytes : memberBytes go datatypes fields d = some bytes)
    (hin : d.info.offset.toNat + d.info.length.toNat ≤ buf.length) :
    writeChildren go datatypes fields (d :: ds) buf =
      writeChildren go datatypes fields ds
        (copyInto buf d.info.offset.toNat (d.info.offset.toNat + d.info.length.toNat) bytes) := by
  unfold memberBytes at hbytes
  obtain ⟨raw, hraw, hbytes⟩ := Option.bind_eq_some_iff.1 hbytes
  obtain ⟨value, hvalue, hbytes⟩ := Option.bind_eq_some_iff.1 hbytes
  have hwrite : d.writeToNode go datatypes value = .ok bytes := by
    cases hw : d.writeToNode go datatypes value with
    | error =>
      rw [hw] at hbytes
      cases hbytes
    | ok =>
      rw [hw] at hbytes
      rw [Option.some.inj hbytes]
  rw [writeChildren, hraw]
  dsimp only
  rw [hvalue]
  dsimp only
  rw [hwrite]
  dsimp only
  rw [if_neg (Nat.not_lt.2 hin)]

/-- **The loop of `writeToNode`**: every member's bytes stand in its place, and nothing else has
    changed. -/
theorem writeChildren_ok (ds : List Symbol) (buf : Bytes)
    (hds : ∀ d ∈ ds, ∃ bytes, memberBytes go datatypes fields d = some bytes ∧
      bytes.length = d.info.length.toNat)
    (hin : ∀ d ∈ ds, d.info.offset.toNat + d.info.length.toNat ≤ buf.length)
    (hdisjoint : ds.Pairwise fun a b => a.info.Disjoint b.info) :
    ∃ buf', writeChildren go datatypes fields ds buf = .ok buf' ∧ buf'.length = buf.length ∧
      (∀ d ∈ ds, ∀ bytes, memberBytes go datatypes fields d = some bytes →
        ∀ k < d.info.length.toNat, buf'[d.info.offset.toNat + k]? = bytes[k]?) ∧
      ∀ j, (∀ d ∈ ds, j < d.info.offset.toNat ∨ d.info.offset.toNat + d.info.length.toNat ≤ j) →
        buf'[j]? = buf[j]? := by
  induction ds generalizing buf with
  | nil =>
    refine ⟨buf, ?_, rfl, fun d hd => absurd hd not_mem_nil, fun _ _ => rfl⟩
    rw [writeChildren]
  | cons d ds ih =>
    obtain ⟨bytes, hbytes, hlen⟩ := hds d (mem_cons_self ..)
    have hd := hin d (mem_cons_self ..)
    obtain ⟨hfirst, hrest⟩ := pairwise_cons.1 hdisjoint
    have hsrc : bytes.length = d.info.offset.toNat + d.info.length.toNat - d.info.offset.toNat := by
      omega
    have hle : d.info.offset.toNat ≤ d.info.offset.toNat + d.info.length.toNat := by omega
    have hcopy := length_copyInto hsrc hle hd
    obtain ⟨buf', hwrite, hlength, hmembers, hothers⟩ := ih
      (copyInto buf d.info.offset.toNat (d.info.offset.toNat + d.info.length.toNat) bytes)
      (fun e he => hds e (mem_cons_of_mem d he))
      (fun e he => by rw [hcopy]; exact hin e (mem_cons_of_mem d he)) hrest
    refine ⟨buf', ?_, hlength.trans hcopy, ?_, ?_⟩
    · rw [writeChildren_cons hbytes hd]
      exact hwrite
    · intro e he bytes' hbytes' k hk
      rcases mem_cons.1 he with rfl | he
      · -- the members behind leave this one alone
        cases hbytes.symm.trans hbytes'
        rw [hothers, getElem?_copyInto_inside hsrc hle hd (by omega)]
        intro e' he'
        have hdis := hfirst e' he'
        unfold Info.Disjoint at hdis
        omega
      · exact hmembers e he bytes' hbytes' k hk
    · intro j hj
      rw [hothers j fun e he => hj e (mem_cons_of_mem d he)]
      exact getElem?_copyInto_outside hsrc hle hd (hj d (mem_cons_self ..))

/-- **What the loop of `writeToNode` writes for a struct**, if every member is written right. -/
theorem writeChildren_written {ds raw}
    (hs : WellFormed NoClash (.mk info cs)) (hne : cs ≠ [])
    (hleft : ∀ c ∈ cs, ∃ d ∈ ds, Reordered c d) (hright : ∀ d ∈ ds, ∃ c ∈ cs, Reordered c d)
    (hdisjoint : ds.Pairwise fun a b => a.info.Disjoint b.info)
    (hmember : ∀ c ∈ cs, ∀ d ∈ ds, Reordered c d → ∃ bytes,
      memberBytes go datatypes fields d = some bytes ∧ Written c (c.info.window raw) bytes) :
    ∃ buf, writeChildren go datatypes fields ds (replicate info.length.toNat 0) = .ok buf ∧
      Written (.mk info cs) raw buf := by
  cases hs with
  | leaf => exact absurd rfl hne
  | composite _ hcs _ _ hinside _ _ =>
    have hlength : (replicate info.length.toNat (0 : UInt8)).length = info.length.toNat :=
      length_replicate
    have hds : ∀ d ∈ ds, ∃ bytes, memberBytes go datatypes fields d = some bytes ∧
        bytes.length = d.info.length.toNat := by
      intro d hd
      obtain ⟨c, hc, hcd⟩ := hright d hd
      obtain ⟨bytes, hbytes, hwritten⟩ := hmember c hc d hd hcd
      obtain ⟨text, heq⟩ := hcd.info_eq
      refine ⟨bytes, hbytes, ?_⟩
      rw [hwritten.length, heq]
      rfl
    have hfit : ∀ d ∈ ds, d.info.offset.toNat + d.info.length.toNat ≤
        (replicate info.length.toNat (0 : UInt8)).length := by
      intro d hd
      obtain ⟨c, hc, hcd⟩ := hright d hd
      obtain ⟨text, heq⟩ := hcd.info_eq
      rw [hlength, heq]
      exact hinside c hc
    obtain ⟨buf, hwrite, hbuf, hin, hout⟩ := writeChildren_ok ds _ hds hfit hdisjoint
    -- a covered byte lies in a member; any other in a gap of a member or between members
    refine ⟨buf, hwrite, hbuf.trans hlength, ?_, ?_⟩
    · intro k hk
      cases hk with
      | leaf => exact absurd rfl hne
      | @member _ _ c k hc hk =>
        obtain ⟨d, hd, hcd⟩ := hleft c hc
        obtain ⟨bytes, hbytes, hwritten⟩ := hmember c hc d hd hcd
        obtain ⟨text, heq⟩ := hcd.info_eq
        have hlt := covered_lt (hcs c hc) hk
        have hat := hin d hd bytes hbytes k (by rw [heq]; exact hlt)
        rw [heq] at hat
        show buf[(c.info.updateValue text).offset.toNat + k]? = _
        rw [hat, hwritten.covered k hk, Info.getElem?_window _ _ hlt]
    · intro k hk hcov
      by_cases hown : ∃ d ∈ ds, d.info.offset.toNat ≤ k ∧ k < d.info.offset.toNat + d.info.length.toNat
      · -- a gap inside a member
        obtain ⟨d, hd, hlo, hhi⟩ := hown
        obtain ⟨c, hc, hcd⟩ := hright d hd
        obtain ⟨bytes, hbytes, hwritten⟩ := hmember c hc d hd hcd
        obtain ⟨text, heq⟩ := hcd.info_eq
        have hoff : d.info.offset = c.info.offset := by rw [heq]; rfl
        have hlen : d.info.length = c.info.length := by rw [heq]; rfl
        have hat := hin d hd bytes hbytes (k - d.info.offset.toNat) (by omega)
        rw [Nat.add_sub_cancel' hlo] at hat
        rw [hat]
        apply hwritten.uncovered
        · rw [← hlen]
          omega
        intro hk'
        apply hcov
        have hmem : Covered (.mk info cs) (c.info.offset.toNat + (k - d.info.offset.toNat)) :=
          .member hc hk'
        rw [← hoff, Nat.add_sub_cancel' hlo] at hmem
        exact hmem
      · -- a gap between the members
        have hgap : ∀ d ∈ ds, k < d.info.offset.toNat ∨ d.info.offset.toNat + d.info.length.toNat ≤ k := by
          intro d hd
          by_contra hno
          exact hown ⟨d, hd, by omega, by omega⟩
        have hk' : k < info.length.toNat := hk
        rw [hout k hgap, getElem?_replicate, if_pos hk']

/-! ## Reading, then writing -/

/-- `s'` is a node read from the bytes `raw`: its value is carried by its parent's JSON, and written
    back in any order. -/
structure ReadBack (go : Go) (datatypes : DataTypes) (s : Symbol) (raw : Bytes) (s' : Symbol) : Prop where
  same : Reordered s s'
  carries : go.Carries (s'.parseTree go) s'.value
  write : ∀ t, Reordered s t →
    ∃ buf, t.writeToNode go datatypes s'.value = .ok buf ∧ Written s raw buf

theorem readBack_leaf (hjson : go.FaithfulJson) {scalar raw}
    (hname : Scalar.ofName info.dataType = some scalar)
    (hlossless : scalar.Lossless info.length.toNat) (hholds : scalar.Holds raw)
    (hlen : raw.length = info.length.toNat) : ∃ text, info.parseLeaf go datatypes raw = .ok text ∧
      ReadBack go datatypes (.mk info []) raw (.mk (info.updateValue text) []) := by
  have hwidth : ∀ w, scalar = .int w → 0 < w := by
    rintro w rfl
    exact (jsonCase_of_ofName hname).2.2.2.2.1
  rw [← hlen] at hlossless
  obtain ⟨text, hparse, hwrite⟩ := Scalar.write_parse hlossless hwidth hholds
  refine ⟨text, ?_, .node .nil .nil, ?_, ?_⟩
  · rw [Info.parseLeaf, hname]
    exact hparse
  · rw [Symbol.parseTree]
    exact Info.carries_leafJson hjson hname hlossless hholds hparse
  intro t ht
  obtain ⟨text', ds, rfl, -, hright, -⟩ := ht.members
  have hds : ds = [] := by
    refine eq_nil_iff_forall_not_mem.2 fun d hd => ?_
    obtain ⟨c, hc, _⟩ := hright d hd
    exact not_mem_nil hc
  rw [hds]
  refine ⟨raw, ?_, hlen, fun _ _ => rfl, fun k hk hno => absurd (.leaf hk) hno⟩
  have hname' : Scalar.ofName (info.updateValue text').dataType = some scalar := hname
  rw [Symbol.writeToNode, Info.writeLeaf, hname']
  show scalar.write go info.length.toNat text = .ok raw
  rw [← hlen]
  exact hwrite

theorem parseChildren_ok {Q : Symbol → Symbol → Prop}
    (h : ∀ c ∈ cs, ∃ c', c.parse go datatypes data c.info.offset.toNat = .ok c' ∧ Q c c') :
    ∃ cs', parseChildren go datatypes cs data = .ok cs' ∧ Forall₂ Q cs cs' := by
  induction cs with
  | nil =>
    refine ⟨[], ?_, .nil⟩
    rw [parseChildren]
  | cons c cs ih =>
    obtain ⟨c', hc, hq⟩ := h c (mem_cons_self ..)
    obtain ⟨cs', hcs, hqs⟩ := ih fun d hd => h d (mem_cons_of_mem c hd)
    refine ⟨c' :: cs', ?_, .cons hq hqs⟩
    rw [parseChildren, hc, hcs]
    rfl

theorem parse_leaf {text} (hstart : start + info.length.toNat ≤ data.length)
    (h : info.parseLeaf go datatypes ((data.drop start).take info.length.toNat) = .ok text) :
    (Symbol.mk info []).parse go datatypes data start = .ok (.mk (info.updateValue text) []) := by
  have hlen : ¬ info.length.toNat > data.length := by omega
  have hend : ¬ start + info.length.toNat > data.length := by omega
  rw [Symbol.parse, if_neg hlen, if_neg hend, h]

theorem parse_composite {cs'} (hne : cs ≠ []) (hstart : start + info.length.toNat ≤ data.length)
    (h : parseChildren go datatypes cs ((data.drop start).take info.length.toNat) = .ok cs') :
    (Symbol.mk info cs).parse go datatypes data start =
      .ok (.mk (info.updateValue ((Symbol.mk info cs').getJSON go)) cs') := by
  have hlen : ¬ info.length.toNat > data.length := by omega
  have hend : ¬ start + info.length.toNat > data.length := by omega
  have hstop : ¬ start + info.length.toNat < start := by omega
  obtain ⟨c, cs, rfl⟩ := exists_cons_of_ne_nil hne
  rw [Symbol.parse, if_neg hlen, if_neg hend, if_neg hstop, Nat.add_sub_cancel_left, h]

theorem parseTree_composite (hne : cs ≠ []) (hnames : (cs.map fun c => c.info.name).Nodup) :
    (Symbol.mk info cs).parseTree go = .obj (jsonFields go cs) := by
  obtain ⟨c, cs, rfl⟩ := exists_cons_of_ne_nil hne
  rw [Symbol.parseTree, parseTrees_eq hnames]

section Composite

variable {cs' : List Symbol} {raw : Bytes}
  (hread : Forall₂ (fun c c' => ReadBack go datatypes c (c.info.window raw) c') cs cs')

include hread

theorem names_eq : (cs'.map fun c => c.info.name) = cs.map fun c => c.info.name := by
  induction hread with
  | nil => rfl
  | @cons c c' cs cs' h _ ih =>
    obtain ⟨text, heq⟩ := h.same.info_eq
    rw [map_cons, map_cons, heq, ih]
    rfl

theorem noClash_of_readBack (hclash : NoClash cs) : NoClash cs' := by
  have hname : ∀ c' ∈ cs', ∃ c ∈ cs, c.info.name = c'.info.name := by
    intro c' hc'
    obtain ⟨c, hc, hback⟩ := forall₂_mem_right hread c' hc'
    obtain ⟨text, heq⟩ := hback.same.info_eq
    refine ⟨c, hc, ?_⟩
    rw [heq]
    rfl
  intro a' ha' b' hb' h
  obtain ⟨a, ha, hna⟩ := hname a' ha'
  obtain ⟨b, hb, hnb⟩ := hname b' hb'
  rw [← hna, ← hnb] at h ⊢
  exact hclash a ha b hb h

theorem getJSON_composite (info : Info) (hjson : go.FaithfulJson) (hne : cs ≠ [])
    (hnames : (cs.map fun c => c.info.name).Nodup) : ∃ text raws, (Symbol.mk info cs').getJSON go = text ∧
      (∀ info', go.Carries ((Symbol.mk info' cs').parseTree go) text) ∧
      go.unmarshalFields text = some raws ∧
      ∀ k, raws.lookup k = ((jsonFields go cs').lookup k).bind go.marshal := by
  have hne' : cs' ≠ [] := by
    rintro rfl
    exact hne (forall₂_nil_right_iff.1 hread)
  have hnames' : (cs'.map fun c => c.info.name).Nodup := by
    rw [names_eq hread]
    exact hnames
  have hfields : ∀ f ∈ jsonFields go cs', ∃ text, go.marshal f.2 = some text := by
    intro f hf
    obtain ⟨c', hc', rfl⟩ := mem_map.1 hf
    obtain ⟨c, _, hback⟩ := forall₂_mem_right hread c' hc'
    obtain ⟨text, htext, _⟩ := hback.carries
    exact ⟨text, htext⟩
  -- what the encoder is trusted with, once per struct
  obtain ⟨text, raws, htext, hhead, hraws, hlookup⟩ := hjson.obj _ (nodup_keys hnames') hfields
  refine ⟨text, raws, ?_, ?_, hraws, hlookup⟩
  · rw [Symbol.getJSON, parseTree_composite hne' hnames', htext]
    rfl
  intro info'
  refine ⟨text, ?_, childValue_of_head hhead⟩
  rw [parseTree_composite hne' hnames']
  exact htext

/-- Every member finds its own field and is written from it. -/
theorem memberBytes_readBack (hkeys : ∀ c ∈ cs, c.info.key = c.info.name)
    (hnames : (cs.map fun c => c.info.name).Nodup) (hclash : NoClash cs) {raws}
    (hlookup : ∀ k, raws.lookup k = ((jsonFields go cs').lookup k).bind go.marshal)
    {c d} (hc : c ∈ cs) (hcd : Reordered c d) :
    ∃ bytes, memberBytes go datatypes raws d = some bytes ∧
      Written c (c.info.window raw) bytes := by
  have hnames' : (cs'.map fun c => c.info.name).Nodup := by
    rw [names_eq hread]
    exact hnames
  obtain ⟨c', hc', hback⟩ := forall₂_mem_left hread c hc
  obtain ⟨field, hfield, hchild⟩ := hback.carries
  obtain ⟨bytes, hbytes, hwritten⟩ := hback.write d hcd
  refine ⟨bytes, ?_, hwritten⟩
  obtain ⟨text, heq⟩ := hcd.info_eq
  obtain ⟨text', heq'⟩ := hback.same.info_eq
  have hkey : d.info.key = c'.info.name := by
    rw [heq, heq']
    exact hkeys c hc
  have hof : fieldOf raws d.info.key = some field := by
    rw [hkey]
    exact fieldOf_member hnames' (noClash_of_readBack hread hclash) hc' hlookup hfield
  rw [memberBytes, hof, Option.bind_some, hchild, Option.bind_some, hbytes]
  rfl

/-- **A struct is read back** if its members are. -/
theorem readBack_composite (hjson : go.FaithfulJson) (hs : WellFormed NoClash (.mk info cs)) (hne : cs ≠ []) :
    ReadBack go datatypes (.mk info cs) raw
      (.mk (info.updateValue ((Symbol.mk info cs').getJSON go)) cs') := by
  have hs' := hs
  cases hs' with
  | leaf => exact absurd rfl hne
  | composite _ hcs hkeys hnames hinside hdisjoint hclash =>
    obtain ⟨text, raws, hvalue, hcarries, hraws, hlookup⟩ :=
      getJSON_composite hread info hjson hne hnames
    rw [hvalue]
    refine ⟨.node (hread.imp fun _ _ h => h.same) (.refl _), hcarries _, ?_⟩
    intro t ht
    obtain ⟨text', ds, rfl, hleft, hright, hapart⟩ := ht.members
    obtain ⟨buf, hwrite, hwritten⟩ := writeChildren_written hs hne hleft hright (hapart hdisjoint)
      fun c hc d hd hcd => memberBytes_readBack hread hkeys hnames hclash hlookup hc hcd
    refine ⟨buf, ?_, hwritten⟩
    -- the other order has members too, so it is written as a struct
    obtain ⟨c, hc⟩ := exists_mem_of_ne_nil cs hne
    obtain ⟨d, hd, _⟩ := hleft c hc
    obtain ⟨d, ds, rfl⟩ := exists_cons_of_ne_nil (ne_nil_of_mem hd)
    exact (writeToNode_composite (cons_ne_nil d ds) hraws).trans hwrite

end Composite

/-- **A well-formed tree is read back**, from wherever its bytes lie. -/
theorem parse_readBack (hjson : go.FaithfulJson) {s} (hs : WellFormed NoClash s)
    (hstart : start + s.info.length.toNat ≤ data.length)
    (hholds : Holds s ((data.drop start).take s.info.length.toNat)) :
    ∃ s', s.parse go datatypes data start = .ok s' ∧
      ReadBack go datatypes s ((data.drop start).take s.info.length.toNat) s' := by
  -- by induction on the tree; a member's window is taken from its parent's
  induction hs generalizing data start with
  | @leaf info scalar hname hlossless =>
    have hstart' : start + info.length.toNat ≤ data.length := hstart
    have hlen : ((data.drop start).take info.length.toNat).length = info.length.toNat := by
      rw [length_take, length_drop]
      omega
    cases hholds with
    | composite hne => exact absurd rfl hne
    | @leaf _ scalar' _ hname' hraw =>
      cases hname.symm.trans hname'
      obtain ⟨text, hparse, hback⟩ := readBack_leaf hjson hname hlossless hraw hlen
      exact ⟨_, parse_leaf hstart' hparse, hback⟩
  | @composite info cs hne hcs hkeys hnames hinside hdisjoint hclash ih =>
    have hstart' : start + info.length.toNat ≤ data.length := hstart
    have hlen : ((data.drop start).take info.length.toNat).length = info.length.toNat := by
      rw [length_take, length_drop]
      omega
    cases hholds with
    | leaf => exact absurd rfl hne
    | composite _ hmembers =>
      have hchildren : ∀ c ∈ cs, ∃ c',
          c.parse go datatypes ((data.drop start).take info.length.toNat) c.info.offset.toNat = .ok c' ∧
            ReadBack go datatypes c
              (c.info.window ((data.drop start).take info.length.toNat)) c' := by
        intro c hc
        refine ih c hc ?_ (hmembers c hc)
        rw [hlen]
        exact hinside c hc
      obtain ⟨cs', hparse, hread⟩ := parseChildren_ok hchildren
      exact ⟨_, parse_composite hne hstart' hparse, readBack_composite hread hjson
        (.composite hne hcs hkeys hnames hinside hdisjoint hclash) hne⟩

/-- **Writing back what was read gives the covered bytes again**, and zeros elsewhere: whatever the
    datatype table, and in whatever order the tree is ranged over when it is written. -/
theorem writeToNode_parse (hjson : go.FaithfulJson) {s : Symbol} (hs : WellFormed NoClash s) {data : Bytes}
    (hlen : data.length = s.info.length.toNat) (hholds : Holds s data) :
    ∃ s', s.parse go datatypes data 0 = .ok s' ∧ Reordered s s' ∧
      ∀ t, Reordered s t → ∃ buf, t.writeToNode go datatypes s'.value = .ok buf ∧
        Written s data buf := by
  have hwhole : (data.drop 0).take s.info.length.toNat = data := by
    rw [drop_zero, ← hlen, take_length]
  have hstart : 0 + s.info.length.toNat ≤ data.length := by omega
  have hread : ∃ s', s.parse go datatypes data 0 = .ok s' ∧
      ReadBack go datatypes s ((data.drop 0).take s.info.length.toNat) s' := by
    apply parse_readBack hjson hs hstart
    rw [hwhole]
    exact hholds
  obtain ⟨s', hparse, hback⟩ := hread
  rw [hwhole] at hback
  exact ⟨s', hparse, hback.same, hback.write⟩

/-- A struct with padding behind its flag. -/
def axis : Symbol :=
  .mk { key := "axis", name := "axis", dataType := "ST_Axis", offset := 0, length := 8 }
    [.mk { key := "on", name := "on", dataType := "BOOL", offset := 0, length := 1 } [],
      .mk { key := "pos", name := "pos", dataType := "INT", offset := 2, length := 2 } [],
      .mk { key := "id", name := "id", dataType := "STRING", offset := 4, length := 4 } []]

theorem axis_wellFormed : WellFormed NoClash axis := by
  refine .composite (cons_ne_nil _ _) ?_ (by decide) (by decide) (by decide) (by decide) (by decide)
  intro c hc
  rcases mem_cons.1 hc with rfl | hc
  · exact .leaf rfl rfl
  rcases mem_cons.1 hc with rfl | hc
  · exact .leaf rfl rfl
  obtain rfl := mem_singleton.1 hc
  exact .leaf rfl trivial

theorem axis_holds : Holds axis [1, 9, 254, 255, 97, 98, 0, 0] := by
  refine .composite (cons_ne_nil _ _) ?_
  intro c hc
  rcases mem_cons.1 hc with rfl | hc
  · exact .leaf rfl (Or.inr rfl)
  rcases mem_cons.1 hc with rfl | hc
  · exact .leaf rfl trivial
  obtain rfl := mem_singleton.1 hc
  exact .leaf rfl ⟨[97, 98], 1, ⟨['a', 'b'], by decide⟩, by decide, rfl⟩

theorem writeToNode_parse_axis :
    ∃ s', axis.parse JsonText.go (fun _ => none) [1, 9, 254, 255, 97, 98, 0, 0] 0 = .ok s' ∧
      Reordered axis s' ∧ ∀ t, Reordered axis t →
        ∃ buf, t.writeToNode JsonText.go (fun _ => none) s'.value = .ok buf ∧
          Written axis [1, 9, 254, 255, 97, 98, 0, 0] buf :=
  writeToNode_parse JsonText.faithful axis_wellFormed rfl axis_holds

/-! ## Names that look like keys -/

/-- An element whose bytes are one number. -/
def element (name : String) (offset : UInt32) : Symbol :=
  .mk { key := name, name := name, dataType := "USINT", offset := offset, length := 1 } []

/-- The name of the second member is the JSON key of the first. -/
def quoted : Symbol :=
  .mk { key := "q", name := "q", dataType := "ST_Quoted", offset := 0, length := 2 }
    [element "x[0]" 0, element "x\"[0]\"" 1]

theorem quoted_wellFormed : WellFormed (fun _ => True) quoted := by
  refine .composite (cons_ne_nil _ _) ?_ (by decide) (by decide) (by decide) (by decide) trivial
  intro c hc
  rcases mem_cons.1 hc with rfl | hc
  · exact .leaf rfl rfl
  obtain rfl := mem_singleton.1 hc
  exact .leaf rfl rfl

theorem quoted_holds : Holds quoted [1, 2] := by
  refine .composite (cons_ne_nil _ _) ?_
  intro c hc
  rcases mem_cons.1 hc with rfl | hc
  · exact .leaf rfl trivial
  obtain rfl := mem_singleton.1 hc
  exact .leaf rfl trivial

/-- The members of `quoted` as they are read. -/
def quotedRead : List Symbol :=
  [.mk { key := "x[0]", name := "x[0]", dataType := "USINT", offset := 0, length := 1,
          value := lit "1" } [],
    .mk { key := "x\"[0]\"", name := "x\"[0]\"", dataType := "USINT", offset := 1, length := 1,
          value := lit "2" } []]

/-- `quoted` as it is read. -/
def quotedAfter (go : Go) : Symbol :=
  .mk (quoted.info.updateValue ((Symbol.mk quoted.info quotedRead).getJSON go)) quotedRead

theorem quoted_parse : quoted.parse go datatypes [1, 2] 0 = .ok (quotedAfter go) :=
  parse_composite (cons_ne_nil _ _) (by decide) rfl

section Quoted

variable {raws : List (String × Text)} (hplain : raws.lookup "x[0]" = none)
  (hkey : raws.lookup "x\"[0]\"" = some (lit "1"))

include hplain hkey

theorem quoted_first : memberBytes go datatypes raws (quotedRead.get ⟨0, by decide⟩) = some [1] := by
  have hof : fieldOf raws "x[0]" = some (lit "1") := by
    rw [fieldOf, hplain]
    exact hkey
  show (fieldOf raws "x[0]").bind _ = _
  rw [hof]
  rfl

omit hplain in
/-- The second member takes the first one's field. -/
theorem quoted_second : memberBytes go datatypes raws (quotedRead.get ⟨1, by decide⟩) = some [1] := by
  have hof : fieldOf raws "x\"[0]\"" = some (lit "1") := by
    rw [fieldOf, hkey]
    rfl
  show (fieldOf raws "x\"[0]\"").bind _ = _
  rw [hof]
  rfl

theorem quoted_writeChildren : writeChildren go datatypes raws quotedRead [0, 0] = .ok [1, 1] := by
  show writeChildren go datatypes raws [quotedRead.get ⟨0, by decide⟩, quotedRead.get ⟨1, by decide⟩]
    [0, 0] = .ok [1, 1]
  rw [writeChildren_cons (quoted_first hplain hkey) (by decide),
    writeChildren_cons (quoted_second hkey) (by decide), writeChildren]
  rfl

end Quoted

theorem quoted_write (hjson : go.FaithfulJson) :
    (quotedAfter go).writeToNode go datatypes (quotedAfter go).value = .ok [1, 1] := by
  have hne : quotedRead ≠ [] := cons_ne_nil _ _
  have hnames : (quotedRead.map fun c => c.info.name).Nodup := by decide
  have hfields : jsonFields go quotedRead = [("x\"[0]\"", .int 1), ("x\"\"[0]\"\"", .int 2)] := rfl
  have hmarshal : ∀ f ∈ jsonFields go quotedRead, ∃ raw, go.marshal f.2 = some raw := by
    rw [hfields]
    intro f hf
    rcases mem_cons.1 hf with rfl | hf
    · exact ⟨_, hjson.int 1⟩
    obtain rfl := mem_singleton.1 hf
    exact ⟨_, hjson.int 2⟩
  obtain ⟨text, raws, htext, _, hraws, hlookup⟩ := hjson.obj _ (nodup_keys hnames) hmarshal
  have hvalue : (quotedAfter go).value = text := by
    show (go.marshal ((Symbol.mk quoted.info quotedRead).parseTree go)).getD [] = text
    rw [parseTree_composite hne hnames, htext]
    rfl
  have hplain : raws.lookup "x[0]" = none := by
    rw [hlookup, hfields]
    rfl
  have hkey : raws.lookup "x\"[0]\"" = some (lit "1") := by
    rw [hlookup, hfields]
    exact hjson.int 1
  rw [hvalue]
  rw [quotedAfter, writeToNode_composite hne hraws]
  exact quoted_writeChildren hplain hkey

theorem quoted_not_written : ¬ Written quoted [1, 2] [1, 1] := by
  intro h
  have hcovered : Covered quoted (1 + 0) :=
    .member (c := element "x\"[0]\"" 1) (mem_cons_of_mem _ (mem_cons_self ..))
      (.leaf (by decide))
  exact absurd (h.covered _ hcovered) (by decide)

/-- Without the condition on names the bytes are not those that were read. -/
theorem writeToNode_parse_quoted :
    ¬ ∀ (go : Go) (datatypes : DataTypes) (s : Symbol) (data : Bytes), go.FaithfulJson →
      WellFormed (fun _ => True) s → data.length = s.info.length.toNat → Holds s data →
        ∃ s' buf, s.parse go datatypes data 0 = .ok s' ∧
          s'.writeToNode go datatypes s'.value = .ok buf ∧ Written s data buf := by
  intro h
  obtain ⟨s', buf, hparse, hwrite, hwritten⟩ := h JsonText.go (fun _ => none) quoted [1, 2]
    JsonText.faithful quoted_wellFormed rfl quoted_holds
  rw [quoted_parse] at hparse
  rw [← Except.ok.inj hparse, quoted_write JsonText.faithful] at hwrite
  rw [← Except.ok.inj hwrite] at hwritten
  exact quoted_not_written hwritten

end GoAds.Codec
