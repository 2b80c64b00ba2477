import GoAds.Codec.Layout
import GoAds.Codec.Resolve

/-!
# `Codec.Members` — the JSON of a struct and the values of its leaves

`parse` resolves the type of a leaf through the datatype table and the type code; `parseTree` looks at the
declared name only, and reads the value of any other name as a `float64`, or as 0.  So the JSON of a struct
has a number in the place of an alias of BOOL, of a text or of a time, and a rounded one in the place of
an alias of a large integer.  And a REAL that JSON has no number for makes the whole text empty.

`Sound` says, of a tree and its bytes, that none of this happens.
-/

namespace GoAds.Codec

open LittleEndian List

/-! ## What is assumed of `encoding/json` -/

/-- Beyond `FaithfulJson`: a number is written with a digit or a sign first, a string with a quote; an
    object is not written if one of its fields is not; and there are no fields in the empty text. -/
structure Go.PlainJson (go : Go) : Prop where
  faithful : go.FaithfulJson
  float_head : ∀ bits text, go.marshal (.float bits) = some text →
    ∃ b rest, text = b :: rest ∧ (b = 45 ∨ 48 ≤ b ∧ b ≤ 57)
  str_head : ∀ s, ∃ rest, go.marshal (.str s) = some (34 :: rest)
  obj_none : ∀ (fields : List (String × Json)), ∀ f ∈ fields, go.marshal f.2 = none →
    go.marshal (.obj fields) = none
  empty : ∀ raws, go.unmarshalFields [] = some raws → raws = []

/-! ## The contract -/

/-- The leaves of a tree, by the keys that lead to them in the JSON value. -/
inductive LeafAt : Symbol → List String → Info → Prop
  | leaf (info : Info) : LeafAt (.mk info []) [] info
  | member {info leaf : Info} {cs : List Symbol} {c : Symbol} {path : List String} (hc : c ∈ cs)
      (h : LeafAt c path leaf) : LeafAt (.mk info cs) (jsonKey c.info.name :: path) leaf

/-- The raw text at a path of keys. -/
inductive RawAt (go : Go) : Text → List String → Text → Prop
  | here (raw : Text) : RawAt go raw [] raw
  | field {text raw raw' : Text} {raws : List (String × Text)} {key : String} {path : List String}
      (hfields : go.unmarshalFields text = some raws) (hkey : raws.lookup key = some raw)
      (h : RawAt go raw path raw') : RawAt go text (key :: path) raw'

/-- The raw text is the value: the literal of a BOOL or an integer, the JSON string of a text, the number
    that a float's text stands for. -/
def Scalar.Carried (go : Go) (value raw : Text) : Scalar → Prop
  | .bool | .uint _ | .int _ => raw = value
  | .real | .lreal => ∃ bits, go.parseFloat 64 value = .ok bits ∧ go.marshal (.float bits) = some raw
  | .string | .wstring | .time | .tod | .date | .dt => go.marshal (.str value) = some raw

/-- **The JSON value of a struct has, at every leaf's path, the value of the leaf.** -/
def Agrees (go : Go) (datatypes : DataTypes) (s : Symbol) : Prop :=
  ∀ path info, LeafAt s path info → ∃ name scalar raw, info.parseType datatypes = .ok name ∧
    Scalar.ofName name = some scalar ∧ RawAt go s.value path raw ∧ scalar.Carried go info.value raw

/-! ## The condition -/

/-- The integer is written the same after a detour through `float64`. -/
def SurvivesFloat (go : Go) (i : Int) : Prop :=
  go.marshal (.float (go.floatValue (Decimal.formatInt i))) = some (Decimal.formatInt i)

/-- The text of a float is a number that JSON has. -/
def IsNumber (go : Go) (text : Text) : Prop :=
  ∃ bits raw, go.parseFloat 64 text = .ok bits ∧ go.marshal (.float bits) = some raw

/-- A leaf of a base type, given its declared name and its bytes. -/
def Scalar.Sound (go : Go) (dataType : String) (raw : Bytes) : Scalar → Prop
  | .uint _ => dataType ∈ parseableTypes ∨ SurvivesFloat go (decode raw)
  | .int w => dataType ∈ parseableTypes ∨ SurvivesFloat go (Int.bmod (decode raw) (256 ^ w))
  | .real => IsNumber go (go.formatFloat32 (UInt32.ofNat (decode raw)))
  | .lreal => IsNumber go (go.formatFloat64 (UInt64.ofNat (decode raw)))
  | _ => dataType ∈ parseableTypes

mutual

/-- **The leaves can be told from their declared names**: each is declared with a base type, or is an
    integer that survives `float64`, or a float; and every float is a number. -/
def Symbol.Sound (go : Go) (datatypes : DataTypes) : Symbol → Bytes → (start : Nat) → Prop
  | .mk info [], data, start =>
    ∀ name scalar, info.parseType datatypes = .ok name → Scalar.ofName name = some scalar →
      scalar.Sound go info.dataType ((data.drop start).take info.length.toNat)
  | .mk info (c :: cs), data, start =>
    SoundAll go datatypes (c :: cs)
      ((data.drop start).take (min (start + info.length.toNat) data.length - start))

def SoundAll (go : Go) (datatypes : DataTypes) : List Symbol → Bytes → Prop
  | [], _ => True
  | s :: ss, data => s.Sound go datatypes data s.info.offset.toNat ∧ SoundAll go datatypes ss data

end

/-- The leaves of a tree, each with its bytes. -/
inductive LeafBytes : Symbol → Bytes → Nat → Info → Bytes → Prop
  | leaf (info : Info) (data : Bytes) (start : Nat) :
      LeafBytes (.mk info []) data start info ((data.drop start).take info.length.toNat)
  | member {info leaf : Info} {cs : List Symbol} {c : Symbol} {data raw : Bytes} {start : Nat} (hc : c ∈ cs)
      (h : LeafBytes c (info.slice data start) c.info.offset.toNat leaf raw) :
      LeafBytes (.mk info cs) data start leaf raw

/-- `Children` is a map by names. -/
inductive DistinctNames : Symbol → Prop
  | node {info : Info} {cs : List Symbol} (names : (cs.map fun c => c.info.name).Nodup)
      (members : ∀ c ∈ cs, DistinctNames c) : DistinctNames (.mk info cs)

variable {go : Go} {datatypes : DataTypes}

variable {data : Bytes} {info : Info} {cs : List Symbol} {scalar : Scalar} {name : String} {text : Text}

theorem soundAll_iff :
    SoundAll go datatypes cs data ↔ ∀ c ∈ cs, c.Sound go datatypes data c.info.offset.toNat := by
  induction cs with
  | nil => simp [SoundAll]
  | cons c cs ih => rw [SoundAll, ih, forall_mem_cons]

theorem RawAt.unique {raw raw' path} (h : RawAt go text path raw)
    (h' : RawAt go text path raw') : raw = raw' := by
  induction h with
  | here => cases h'; rfl
  | field hfields hkey _ ih =>
    cases h' with
    | field hfields' hkey' h' =>
      cases hfields.symm.trans hfields'
      cases hkey.symm.trans hkey'
      exact ih h'

/-! ## The JSON text of a tree -/

/-- A tree is marshalled with the text of every leaf at its path, or a leaf of it is not marshalled and
    then neither is the tree. -/
theorem marshal_parseTree (hjson : go.PlainJson) (t : Symbol) : DistinctNames t →
    (∃ text, go.marshal (t.parseTree go) = some text ∧ ∀ path info, LeafAt t path info →
      ∃ raw, RawAt go text path raw ∧ go.marshal (info.leafJson go) = some raw) ∨
    (go.marshal (t.parseTree go) = none ∧ ∃ path info, LeafAt t path info ∧
      go.marshal (info.leafJson go) = none) := by
  induction t using Symbol.induction with
  | node info cs ih =>
    rintro ⟨hnames, hmembers⟩
    by_cases hcs : cs = []
    · subst hcs
      rw [Symbol.parseTree]
      cases hraw : go.marshal (info.leafJson go) with
      | none => exact .inr ⟨rfl, [], info, .leaf info, hraw⟩
      | some raw =>
        refine .inl ⟨raw, rfl, fun path leaf hleaf => ?_⟩
        cases hleaf with
        | leaf => exact ⟨raw, .here raw, hraw⟩
        | member hc => cases hc
    · have htree : (Symbol.mk info cs).parseTree go = .obj (jsonFields go cs) := by
        obtain ⟨c, cs, rfl⟩ := exists_cons_of_ne_nil hcs
        rw [Symbol.parseTree, parseTrees_eq hnames]
      rw [htree]
      by_cases hall : ∀ c ∈ cs, ∃ raw, go.marshal (c.parseTree go) = some raw
      · have hfields : ∀ f ∈ jsonFields go cs, ∃ raw, go.marshal f.2 = some raw := by
          intro f hf
          obtain ⟨c, hc, rfl⟩ := mem_map.1 hf
          exact hall c hc
        obtain ⟨text, raws, htext, -, hraws, hlookup⟩ := hjson.faithful.obj _ (nodup_keys hnames) hfields
        refine .inl ⟨text, htext, fun path leaf hleaf => ?_⟩
        cases hleaf with
        | leaf => exact absurd rfl hcs
        | @member _ _ _ c path hc hleaf =>
          rcases ih c hc (hmembers c hc) with ⟨raw, hraw, hpaths⟩ | ⟨hnone, -⟩
          · obtain ⟨raw', hat, hleafraw⟩ := hpaths path leaf hleaf
            refine ⟨raw', .field hraws ?_ hat, hleafraw⟩
            rw [hlookup, lookup_jsonFields hnames hc]
            exact hraw
          obtain ⟨raw, hraw⟩ := hall c hc
          rw [hnone] at hraw
          cases hraw
      · push Not at hall
        obtain ⟨c, hc, hnot⟩ := hall
        rcases ih c hc (hmembers c hc) with ⟨raw, hraw, -⟩ | ⟨hnone, path, leaf, hleaf, hraw⟩
        · exact absurd hraw (hnot raw)
        · refine .inr ⟨?_, _, leaf, .member hc hleaf, hraw⟩
          exact hjson.obj_none _ _ (mem_map.2 ⟨c, hc, rfl⟩) hnone

/-! ## One leaf -/

/-- The JSON value of a leaf is its value. -/
def LeafOk (go : Go) (datatypes : DataTypes) (info : Info) : Prop :=
  ∃ name scalar raw, info.parseType datatypes = .ok name ∧ Scalar.ofName name = some scalar ∧
    go.marshal (info.leafJson go) = some raw ∧ scalar.Carried go info.value raw

theorem leafOk_of_type
    (hname : info.parseType datatypes = .ok name) (hscalar : Scalar.ofName name = some scalar) :
    LeafOk go datatypes (info.updateValue text) ↔
      ∃ raw, go.marshal ((info.updateValue text).leafJson go) = some raw ∧ scalar.Carried go text raw := by
  constructor
  · rintro ⟨name', scalar', raw, hname', hscalar', hraw, h⟩
    cases hname.symm.trans hname'
    cases hscalar.symm.trans hscalar'
    exact ⟨raw, hraw, h⟩
  · rintro ⟨raw, hraw, h⟩
    exact ⟨name, scalar, raw, hname, hscalar, hraw, h⟩

theorem float_names (h : Scalar.ofName name = some .real ∨ Scalar.ofName name = some .lreal) :
    name ≠ "BOOL" ∧ name ∉ stringsList ∧ name ∉ signedIntTypes ∧ name ∉ unsignedIntTypes := by
  have hall : ∀ n ∈ parseableTypes, Scalar.ofName n = some .real ∨ Scalar.ofName n = some .lreal →
      n ≠ "BOOL" ∧ n ∉ stringsList ∧ n ∉ signedIntTypes ∧ n ∉ unsignedIntTypes := by decide
  refine hall name (mem_parseableTypes.2 ?_) h
  rcases h with h | h
  · exact ⟨_, h⟩
  · exact ⟨_, h⟩

theorem other_names (h : name ∉ parseableTypes) :
    name ≠ "BOOL" ∧ name ∉ stringsList ∧ name ∉ signedIntTypes ∧ name ∉ unsignedIntTypes := by
  have hstr : ∀ n ∈ stringsList, n ∈ parseableTypes := by decide
  have hsigned : ∀ n ∈ signedIntTypes, n ∈ parseableTypes := by decide
  have hunsigned : ∀ n ∈ unsignedIntTypes, n ∈ parseableTypes := by decide
  refine ⟨?_, fun hn => h (hstr name hn), fun hn => h (hsigned name hn), fun hn => h (hunsigned name hn)⟩
  rintro rfl
  exact h (by decide)

theorem leafJson_float (h : info.dataType ≠ "BOOL" ∧ info.dataType ∉ stringsList ∧
    info.dataType ∉ signedIntTypes ∧ info.dataType ∉ unsignedIntTypes) :
    (info.updateValue text).leafJson go = .float (go.floatValue text) := by
  obtain ⟨hbool, hstr, hsigned, hunsigned⟩ := h
  rw [Info.leafJson_updateValue, if_neg hbool, if_neg hstr, if_neg hsigned, if_neg hunsigned]

theorem leafOk_float (hs : scalar = .real ∨ scalar = .lreal) :
    (∃ raw, go.marshal (.float (go.floatValue text)) = some raw ∧
      scalar.Carried go text raw) ↔ IsNumber go text := by
  have hcarried : ∀ raw, scalar.Carried go text raw ↔
      ∃ bits, go.parseFloat 64 text = .ok bits ∧ go.marshal (.float bits) = some raw := by
    rcases hs with rfl | rfl
    · exact fun raw => Iff.rfl
    · exact fun raw => Iff.rfl
  constructor
  · rintro ⟨raw, -, h⟩
    obtain ⟨bits, hbits, hraw⟩ := (hcarried raw).1 h
    exact ⟨bits, raw, hbits, hraw⟩
  rintro ⟨bits, raw, hbits, hraw⟩
  refine ⟨raw, ?_, (hcarried raw).2 ⟨bits, hbits, hraw⟩⟩
  rw [floatValue_ok hbits]
  exact hraw

/-- The types whose JSON value is a string. -/
def Scalar.IsText : Scalar → Prop
  | .string | .wstring | .time | .tod | .date | .dt => True
  | _ => False

instance (s : Scalar) : Decidable s.IsText := by
  unfold Scalar.IsText
  split <;> infer_instance

theorem text_names (h : Scalar.ofName name = some scalar)
    (htext : scalar.IsText) : name ≠ "BOOL" ∧ name ∈ stringsList := by
  have hall : ∀ n ∈ parseableTypes, ((Scalar.ofName n).any fun s => decide s.IsText) = true →
      n ≠ "BOOL" ∧ n ∈ stringsList := by decide
  refine hall name (mem_parseableTypes.2 ⟨scalar, h⟩) ?_
  rw [h]
  exact decide_eq_true htext

theorem leafOk_text (hjson : go.PlainJson)
    (htext : scalar.IsText)
    (hown : info.dataType ∈ parseableTypes → Scalar.ofName info.dataType = some scalar) :
    (∃ raw, go.marshal ((info.updateValue text).leafJson go) = some raw ∧ scalar.Carried go text raw) ↔
      info.dataType ∈ parseableTypes := by
  have hcarried : ∀ raw, scalar.Carried go text raw ↔ go.marshal (.str text) = some raw := by
    intro raw
    cases scalar <;> first | exact htext.elim | exact Iff.rfl
  constructor
  · rintro ⟨raw, hraw, h⟩
    by_contra hother
    -- a number does not start with a quote
    rw [leafJson_float (other_names hother)] at hraw
    obtain ⟨b, rest, rfl, hb⟩ := hjson.float_head _ _ hraw
    obtain ⟨rest', hstr⟩ := hjson.str_head text
    rw [(hcarried _).1 h] at hstr
    obtain ⟨rfl, -⟩ := cons.inj (Option.some.inj hstr)
    rcases hb with hb | ⟨hb, -⟩
    · exact absurd hb (by decide)
    · exact absurd hb (by decide)
  · intro hmem
    obtain ⟨hbool, hstr⟩ := text_names (hown hmem) htext
    obtain ⟨rest, hraw⟩ := hjson.str_head text
    refine ⟨34 :: rest, ?_, (hcarried _).2 hraw⟩
    rw [Info.leafJson_updateValue, if_neg hbool, if_pos hstr]
    exact hraw

/-- An integer under another name is written as a float. -/
theorem leafOk_alias (scalar : Scalar) {i} (hother : info.dataType ∉ parseableTypes)
    (hs : ∀ raw, scalar.Carried go (Decimal.formatInt i) raw ↔ raw = Decimal.formatInt i) :
    (∃ raw, go.marshal ((info.updateValue (Decimal.formatInt i)).leafJson go) = some raw ∧
      scalar.Carried go (Decimal.formatInt i) raw) ↔ SurvivesFloat go i := by
  rw [leafJson_float (other_names hother), SurvivesFloat]
  constructor
  · rintro ⟨raw, hraw, h⟩
    rw [hraw, (hs raw).1 h]
  · intro h
    exact ⟨_, h, (hs _).2 rfl⟩

theorem leafOk_bool (hjson : go.PlainJson) {b : Bool}
    (hown : info.dataType ∈ parseableTypes → Scalar.ofName info.dataType = some .bool) :
    (∃ raw, go.marshal ((info.updateValue (lit (if b then "true" else "false"))).leafJson go) = some raw ∧
      Scalar.bool.Carried go (lit (if b then "true" else "false")) raw) ↔
      info.dataType ∈ parseableTypes := by
  constructor
  · rintro ⟨raw, hraw, rfl⟩
    by_contra hother
    rw [leafJson_float (other_names hother)] at hraw
    obtain ⟨c, rest, hlit, hc⟩ := hjson.float_head _ _ hraw
    -- nor with a letter
    have hhead : c = 116 ∨ c = 102 := by
      cases b with
      | true => exact .inl (cons.inj hlit).1.symm
      | false => exact .inr (cons.inj hlit).1.symm
    rcases hhead with rfl | rfl
    · rcases hc with hc | ⟨-, hc⟩
      · exact absurd hc (by decide)
      · exact absurd hc (by decide)
    rcases hc with hc | ⟨-, hc⟩
    · exact absurd hc (by decide)
    · exact absurd hc (by decide)
  · intro hmem
    have hbool : info.dataType = "BOOL" := jsonCase_of_ofName (hown hmem)
    refine ⟨lit (if b then "true" else "false"), ?_, rfl⟩
    rw [Info.leafJson_updateValue, if_pos hbool]
    cases b with
    | true =>
      show go.marshal (.bool ((parseBool (lit "true")).toOption.getD false)) = some (lit "true")
      rw [parseBool_true]
      exact hjson.faithful.bool true
    | false =>
      show go.marshal (.bool ((parseBool (lit "false")).toOption.getD false)) = some (lit "false")
      rw [parseBool_false]
      exact hjson.faithful.bool false

/-- **A leaf that was read has its value in the JSON exactly when it is sound.** -/
theorem leafOk_iff (hjson : go.PlainJson) {raw}
    (hname : info.parseType datatypes = .ok name) (hscalar : Scalar.ofName name = some scalar)
    (hparse : scalar.parse go raw = .ok text) :
    LeafOk go datatypes (info.updateValue text) ↔ scalar.Sound go info.dataType raw := by
  -- a declared base type is the type it is read as
  have hown : info.dataType ∈ parseableTypes → Scalar.ofName info.dataType = some scalar := by
    intro hmem
    rw [Info.parseType, if_pos hmem] at hname
    rw [Except.ok.inj hname]
    exact hscalar
  rw [leafOk_of_type hname hscalar]
  cases scalar with
  | bool =>
    obtain ⟨-, rfl⟩ := sized_eq_ok.1 hparse
    have hlit : (if decode raw > 0 then lit "true" else lit "false") =
        lit (if decide (decode raw > 0) = true then "true" else "false") := by
      by_cases h : decode raw > 0
      · rw [if_pos h, if_pos (decide_eq_true h)]
      · rw [if_neg h, if_neg (by simpa using h)]
    rw [hlit]
    exact leafOk_bool hjson hown
  | uint w =>
    obtain ⟨hlen, rfl⟩ := sized_eq_ok.1 hparse
    by_cases hmem : info.dataType ∈ parseableTypes
    · refine iff_of_true ⟨_, ?_, rfl⟩ (.inl hmem)
      exact Info.marshal_uint hjson.faithful (hown hmem) (hlen ▸ decode_lt raw)
    · have halias : _ ↔ SurvivesFloat go (decode raw) := leafOk_alias (.uint w) hmem fun _ => Iff.rfl
      exact halias.trans ⟨.inr, fun h => h.resolve_left hmem⟩
  | int w =>
    obtain ⟨hlen, rfl⟩ := sized_eq_ok.1 hparse
    by_cases hmem : info.dataType ∈ parseableTypes
    · obtain ⟨hlo, hhi, -⟩ := bmod_decode (width_pos hscalar) hlen
      refine iff_of_true ⟨_, ?_, rfl⟩ (.inl hmem)
      exact Info.marshal_int hjson.faithful (hown hmem) hlo hhi
    · refine (leafOk_alias (.int w) hmem fun _ => Iff.rfl).trans ?_
      exact ⟨.inr, fun h => h.resolve_left hmem⟩
  | real | lreal =>
    obtain ⟨-, rfl⟩ := sized_eq_ok.1 hparse
    have hnames : info.dataType ≠ "BOOL" ∧ info.dataType ∉ stringsList ∧ info.dataType ∉ signedIntTypes ∧
        info.dataType ∉ unsignedIntTypes := by
      by_cases hmem : info.dataType ∈ parseableTypes
      · exact float_names (by simp [hown hmem])
      · exact other_names hmem
    rw [leafJson_float hnames]
    exact leafOk_float (by simp)
  | string | wstring | time | tod | date | dt => exact leafOk_text hjson trivial hown

/-! ## A tree that is read -/

theorem forall₂_of_parseChildren {cs'} (h : parseChildren go datatypes cs data = .ok cs') :
    Forall₂ (fun c c' => c.parse go datatypes data c.info.offset.toNat = .ok c') cs cs' := by
  induction cs generalizing cs' with
  | nil =>
    rw [parseChildren] at h
    cases h
    exact .nil
  | cons c cs ih =>
    rw [parseChildren] at h
    split at h
    · cases h
    next c' hc =>
    cases hrest : parseChildren go datatypes cs data with
    | error =>
      rw [hrest] at h
      cases h
    | ok =>
      rw [hrest] at h
      cases h
      exact .cons hc (ih hrest)

/-- A struct that is read has its members read from its window, and their JSON. -/
theorem parse_composite_ok {start s'}
    (hne : cs ≠ []) (h : (Symbol.mk info cs).parse go datatypes data start = .ok s') :
    ∃ cs', s' = .mk (info.updateValue ((Symbol.mk info cs').getJSON go)) cs' ∧
      Forall₂ (fun c c' => c.parse go datatypes
        ((data.drop start).take (min (start + info.length.toNat) data.length - start))
        c.info.offset.toNat = .ok c') cs cs' := by
  obtain ⟨c, cs, rfl⟩ := exists_cons_of_ne_nil hne
  rw [Symbol.parse, ite_stop] at h
  split at h
  · cases h
  dsimp only at h
  split at h
  · cases h
  split at h
  · cases h
  · next cs' hcs => exact ⟨cs', (Except.ok.inj h).symm, forall₂_of_parseChildren hcs⟩

theorem name_of_parse {s s' : Symbol} {start : Nat}
    (h : s.parse go datatypes data start = .ok s') : s'.info.name = s.info.name := by
  obtain ⟨info, cs⟩ := s
  by_cases hcs : cs = []
  · subst hcs
    obtain ⟨text, -, rfl⟩ := parse_leaf_ok h
    rfl
  · obtain ⟨cs', rfl, -⟩ := parse_composite_ok hcs h
    rfl

theorem names_of_forall₂ {cs' : List Symbol}
    (h : Forall₂ (fun c c' => c'.info.name = c.info.name) cs cs') :
    (cs'.map fun c => c.info.name) = cs.map fun c => c.info.name := by
  induction h with
  | nil => rfl
  | cons hc _ ih => rw [map_cons, map_cons, hc, ih]

theorem distinctNames_of_parse (s : Symbol) : ∀ {data : Bytes} {start : Nat} {s' : Symbol}, DistinctNames s →
    s.parse go datatypes data start = .ok s' → DistinctNames s' := by
  induction s using Symbol.induction with
  | node info cs ih =>
    rintro data start s' ⟨hnames, hmembers⟩ h
    by_cases hcs : cs = []
    · subst hcs
      obtain ⟨text, -, rfl⟩ := parse_leaf_ok h
      exact .node .nil fun c hc => by cases hc
    obtain ⟨cs', rfl, hread⟩ := parse_composite_ok hcs h
    refine .node ?_ fun c' hc' => ?_
    · rw [names_of_forall₂ (hread.imp fun _ _ => name_of_parse)]
      exact hnames
    · obtain ⟨c, hc, hparse⟩ := forall₂_mem_right hread c' hc'
      exact ih c hc (hmembers c hc) hparse

/-- **The leaves of a tree that was read** are those of the tree, each with the text of its bytes. -/
theorem leafAt_of_parse (s : Symbol) : ∀ {data : Bytes} {start : Nat} {s' : Symbol},
    s.parse go datatypes data start = .ok s' →
      (∀ leaf raw, LeafBytes s data start leaf raw → ∃ text path, leaf.parseLeaf go datatypes raw = .ok text ∧
        LeafAt s' path (leaf.updateValue text)) ∧
      ∀ path leaf', LeafAt s' path leaf' → ∃ leaf raw text, LeafBytes s data start leaf raw ∧
        leaf.parseLeaf go datatypes raw = .ok text ∧ leaf' = leaf.updateValue text := by
  induction s using Symbol.induction with
  | node info cs ih =>
    intro data start s' h
    by_cases hcs : cs = []
    · subst hcs
      obtain ⟨text, htext, rfl⟩ := parse_leaf_ok h
      constructor
      · intro leaf raw hbytes
        cases hbytes with
        | leaf => exact ⟨text, [], htext, .leaf _⟩
        | member hc => cases hc
      intro path leaf' hat
      cases hat with
      | leaf => exact ⟨info, _, text, .leaf .., htext, rfl⟩
      | member hc => cases hc
    · obtain ⟨cs', rfl, hread⟩ := parse_composite_ok hcs h
      constructor
      · intro leaf raw hbytes
        cases hbytes with
        | leaf => exact absurd rfl hcs
        | member hc hbytes =>
          obtain ⟨c', hc', hparse⟩ := forall₂_mem_left hread _ hc
          obtain ⟨text, path, htext, hat⟩ := (ih _ hc hparse).1 leaf raw hbytes
          exact ⟨text, _, htext, .member hc' hat⟩
      intro path leaf' hat
      cases hat with
      | leaf => exact absurd (length_eq_zero_iff.1 hread.length_eq) hcs
      | member hc' hat =>
        obtain ⟨c, hc, hparse⟩ := forall₂_mem_right hread _ hc'
        obtain ⟨leaf, raw, text, hbytes, htext⟩ := (ih c hc hparse).2 _ leaf' hat
        exact ⟨leaf, raw, text, .member hc hbytes, htext⟩

theorem sound_iff (s : Symbol) : ∀ {data : Bytes} {start : Nat}, s.Sound go datatypes data start ↔
    ∀ leaf raw, LeafBytes s data start leaf raw → ∀ name scalar, leaf.parseType datatypes = .ok name →
      Scalar.ofName name = some scalar → scalar.Sound go leaf.dataType raw := by
  induction s using Symbol.induction with
  | node info cs ih =>
    intro data start
    cases cs with
    | nil =>
      rw [Symbol.Sound]
      refine ⟨fun h leaf raw hbytes => ?_, fun h => h _ _ (.leaf ..)⟩
      cases hbytes with
      | leaf => exact h
      | member hc => cases hc
    | cons c cs =>
      rw [Symbol.Sound, soundAll_iff]
      constructor
      · intro h leaf raw hbytes
        cases hbytes with
        | member hc hbytes => exact (ih _ hc).1 (h _ hc) leaf raw hbytes
      · exact fun h d hd => (ih d hd).2 fun leaf raw hbytes => h leaf raw (.member hd hbytes)

/-- **The leaves of a tree that was read are right exactly when the tree is sound.** -/
theorem leavesOk_iff (hjson : go.PlainJson) {s : Symbol} {start s'}
    (h : s.parse go datatypes data start = .ok s') :
    (∀ path info, LeafAt s' path info → LeafOk go datatypes info) ↔ s.Sound go datatypes data start := by
  obtain ⟨hread, hfrom⟩ := leafAt_of_parse s h
  rw [sound_iff]
  constructor
  · intro hall leaf raw hbytes name scalar hname hscalar
    obtain ⟨text, path, htext, hat⟩ := hread leaf raw hbytes
    rw [parseLeaf_eq, hname] at htext
    have hparse : scalar.parse go raw = .ok text := by simpa only [Except.bind, parseAs, hscalar] using htext
    exact (leafOk_iff hjson hname hscalar hparse).1 (hall path _ hat)
  intro hsound path leaf' hat
  obtain ⟨leaf, raw, text, hbytes, htext, rfl⟩ := hfrom path leaf' hat
  obtain ⟨name, scalar, hname, hscalar, hparse⟩ := parse_of_parseLeaf htext
  exact (leafOk_iff hjson hname hscalar hparse).2 (hsound leaf raw hbytes name scalar hname hscalar)

/-! ## The contract and the condition -/

/-- The JSON of a struct agrees with its leaves exactly when every leaf is right by itself. -/
theorem agrees_iff (hjson : go.PlainJson) (hne : cs ≠ []) (hdistinct : DistinctNames (.mk info cs))
    (hvalue : info.value = (Symbol.mk info cs).getJSON go) :
    Agrees go datatypes (.mk info cs) ↔
      ∀ path leaf, LeafAt (.mk info cs) path leaf → LeafOk go datatypes leaf := by
  have hvalue' : (Symbol.mk info cs).value = ((go.marshal ((Symbol.mk info cs).parseTree go))).getD [] := hvalue
  rcases marshal_parseTree hjson (.mk info cs) hdistinct with
    ⟨text, htext, hraws⟩ | ⟨hnone, path, leaf, hat, hleaf⟩
  · rw [htext] at hvalue'
    constructor
    · intro h path leaf hat
      obtain ⟨name, scalar, raw, hname, hscalar, hraw, hcarried⟩ := h path leaf hat
      obtain ⟨raw', hraw', hmarshal⟩ := hraws path leaf hat
      rw [hvalue'] at hraw
      obtain rfl := hraw.unique hraw'
      exact ⟨name, scalar, raw, hname, hscalar, hmarshal, hcarried⟩
    intro h path leaf hat
    obtain ⟨name, scalar, raw, hname, hscalar, hmarshal, hcarried⟩ := h path leaf hat
    obtain ⟨raw', hraw', hmarshal'⟩ := hraws path leaf hat
    cases hmarshal.symm.trans hmarshal'
    refine ⟨name, scalar, raw, hname, hscalar, ?_, hcarried⟩
    rw [hvalue']
    exact hraw'
  -- nothing is in the empty text
  · rw [hnone] at hvalue'
    refine iff_of_false ?_ ?_
    · intro h
      obtain ⟨name, scalar, raw, -, -, hraw, -⟩ := h path leaf hat
      rw [hvalue'] at hraw
      cases hat with
      | leaf => exact hne rfl
      | member =>
        cases hraw with
        | field hfields hkey =>
          rw [hjson.empty _ hfields] at hkey
          cases hkey
    · intro h
      obtain ⟨-, -, raw, -, -, hmarshal, -⟩ := h path leaf hat
      rw [hleaf] at hmarshal
      cases hmarshal

/-- The value of a struct is not in its JSON. -/
theorem parseTree_info {info'} (hne : cs ≠ []) :
    (Symbol.mk info cs).parseTree go = (Symbol.mk info' cs).parseTree go := by
  obtain ⟨c, cs, rfl⟩ := exists_cons_of_ne_nil hne
  rw [Symbol.parseTree, Symbol.parseTree]

theorem composite_of_parse {start s'} (hne : cs ≠ [])
    (hparse : (Symbol.mk info cs).parse go datatypes data start = .ok s') :
    ∃ info' cs', s' = .mk info' cs' ∧ cs' ≠ [] ∧ info'.value = (Symbol.mk info' cs').getJSON go := by
  obtain ⟨cs', rfl, hread⟩ := parse_composite_ok hne hparse
  have hne' : cs' ≠ [] := by
    rintro rfl
    exact hne (length_eq_zero_iff.1 hread.length_eq)
  refine ⟨_, cs', rfl, hne', ?_⟩
  show ((go.marshal ((Symbol.mk info cs').parseTree go))).getD [] =
    ((go.marshal ((Symbol.mk (info.updateValue ((Symbol.mk info cs').getJSON go)) cs').parseTree go))).getD []
  rw [parseTree_info hne']

/-- **The JSON that `parse` returns for a struct has at every leaf the value the leaf was decoded to,
    exactly when the tree is sound for these bytes.** -/
theorem parse_agrees_iff (hjson : go.PlainJson) {info : Info} {cs : List Symbol} {data : Bytes} {s' : Symbol}
    (hne : cs ≠ []) (hdistinct : DistinctNames (.mk info cs))
    (hparse : (Symbol.mk info cs).parse go datatypes data 0 = .ok s') :
    Agrees go datatypes s' ↔ (Symbol.mk info cs).Sound go datatypes data 0 := by
  rw [← leavesOk_iff hjson hparse]
  have hdistinct' : DistinctNames s' := distinctNames_of_parse _ hdistinct hparse
  obtain ⟨info', cs', rfl, hne', hvalue⟩ := composite_of_parse hne hparse
  exact agrees_iff hjson hne' hdistinct' hvalue

theorem JsonText.plain : JsonText.go.PlainJson where
  faithful := JsonText.faithful
  float_head bits text h := by
    cases h
    rw [JsonText.marshal]
    exact Decimal.head_formatInt _
  str_head s := ⟨_, congrArg some (by rw [JsonText.marshal, JsonText.quote])⟩
  obj_none fields f _ h := by cases h
  empty raws h := (Option.some.inj (Encodable.decode_list_zero.symm.trans h)).symm

namespace Example

def aliases : DataTypes := fun name =>
  if name = "T_FLAG" then some "BOOL" else if name = "T_LEVEL" then some "USINT" else none

/-- A member with an alias of USINT. -/
def level : Info :=
  { key := "level", name := "level", dataType := "T_LEVEL", offset := 0, length := 1 }

def tank : Info :=
  { key := "tank", name := "tank", dataType := "ST_TANK", offset := 0, length := 1 }

def levelRead : Symbol := .mk (level.updateValue (Decimal.formatInt 7)) []

def tankRead : Symbol := .mk (tank.updateValue ((Symbol.mk tank [levelRead]).getJSON JsonText.go)) [levelRead]

/-- A member with an alias of BOOL. -/
def flag : Info :=
  { key := "flag", name := "flag", dataType := "T_FLAG", offset := 0, length := 1 }

def valve : Info :=
  { key := "valve", name := "valve", dataType := "ST_VALVE", offset := 0, length := 1 }

def flagRead : Symbol := .mk (flag.updateValue (lit "true")) []

def valveRead : Symbol := .mk (valve.updateValue ((Symbol.mk valve [flagRead]).getJSON JsonText.go)) [flagRead]

end Example

open Example

theorem distinctNames_single {leaf} : DistinctNames (.mk info [.mk leaf []]) := by
  refine .node (nodup_singleton _) fun c hc => ?_
  obtain rfl := mem_singleton.1 hc
  exact .node .nil fun c hc => by cases hc

theorem parse_agrees_tank : Agrees JsonText.go aliases tankRead := by
  have hparse : (Symbol.mk tank [.mk level []]).parse JsonText.go aliases [7] 0 = .ok tankRead := rfl
  refine (parse_agrees_iff JsonText.plain (cons_ne_nil _ _) distinctNames_single hparse).2 ?_
  rw [Symbol.Sound, soundAll_iff]
  intro c hc
  obtain rfl := mem_singleton.1 hc
  rw [Symbol.Sound]
  intro name scalar hname hscalar
  obtain rfl : "USINT" = name := Except.ok.inj hname
  obtain rfl : Scalar.uint 1 = scalar := Option.some.inj hscalar
  -- 7 is well within what a float64 holds exactly
  obtain ⟨hbits, hmarshal⟩ := JsonText.marshal_float (i := 7) (by decide) (by decide)
  refine .inr ?_
  show some (JsonText.marshal (.float (JsonText.go.floatValue (Decimal.formatInt 7)))) =
    some (Decimal.formatInt 7)
  rw [floatValue_ok hbits]
  exact congrArg some hmarshal

/-- A flag that was read as true is 0 in the JSON of its struct. -/
theorem flag_is_zero_in_json : (Symbol.mk valve [.mk flag []]).parse JsonText.go aliases [1] 0 =
      .ok valveRead ∧ flagRead.value = lit "true" ∧ RawAt JsonText.go valveRead.value ["flag"] (lit "0") ∧
    ¬Agrees JsonText.go aliases valveRead := by
  have hvalue : valveRead.value = lit "\x7b\"flag\":0\x7d" := by decide
  have hread : JsonText.go.unmarshalFields (lit "\x7b\"flag\":0\x7d") = some [("flag", lit "0")] := by decide
  have hraw : RawAt JsonText.go valveRead.value ["flag"] (lit "0") := by
    rw [hvalue]
    exact .field hread rfl (.here _)
  have hleaf : LeafAt valveRead ["flag"] (flag.updateValue (lit "true")) := by
    have hkey : jsonKey flagRead.info.name = "flag" := by decide
    have hmember : LeafAt valveRead [jsonKey flagRead.info.name]
        (flag.updateValue (lit "true")) := .member (mem_singleton.2 rfl) (.leaf _)
    rwa [hkey] at hmember
  refine ⟨rfl, rfl, hraw, fun h => ?_⟩
  obtain ⟨name, scalar, raw, hname, hscalar, hat, hcarried⟩ := h _ _ hleaf
  obtain rfl := hraw.unique hat
  obtain rfl : "BOOL" = name := Except.ok.inj hname
  obtain rfl : Scalar.bool = scalar := Option.some.inj hscalar
  have heq : lit "0" = lit "true" := hcarried
  exact absurd heq (by decide)

end GoAds.Codec
