import GoAds.Discovery.Outcomes
import GoAds.Symbols.Cache

/-!
# `Discovery.Expansion` — where the members of a symbol are

`addSymbol` gives a symbol of a composite type its members, they get theirs, and so on down to members
whose type is not in the table or is an enum.  `addChildren` files all of them, and `symbolSumAddress` finds
the address of one by adding up the offsets of the chain of its parents.

A member is reached by a path of segments of the table (`MemberPath`), a node of the tree by the names on
the way to it (`Symbol.At`).  For a table that is laid out well, the two are the same, the address of a node
is the sum along its path, and no two nodes have one key.

* A node's chain of parents is what the pointers `Parent` lead through: `addOffsetDepth` gives a child the
  symbol whose `Children` it fills.
* The table's entries have a `Size` that no function here reads; it is a parameter, `size`.
-/

namespace GoAds.Discovery

open FirstWins List

variable {lower : Char → Char} {datatypes : DataTypes}

/-! ## Members and their members -/

def subMembers (datatypes : DataTypes) (left : Nat) (info : Info) : List (Name × Symbol) :=
  match datatypes info.dataType with
  | some dt => if isEnumDataType dt then [] else addOffsetDepth datatypes left info dt
  | none => []

/-- The member that a segment gives a parent, with its members. -/
def expandMember (datatypes : DataTypes) (left : Nat) (parent : Info) (segment : Segment) : Symbol :=
  .mk (member parent segment) (subMembers datatypes left (member parent segment))

variable {data dt : DataType} {parent : Info} {left : Nat} {segment : Segment} {x : Symbol}
  {posSize : UInt32} {u : Upload}

theorem mem_addOffsetDepth_succ {p} : p ∈ addOffsetDepth datatypes (left + 1) parent data ↔
      ∃ segment ∈ data.children, segment.name ≠ [] ∧
        p = (segment.name, expandMember datatypes left parent segment) := by
  rw [addOffsetDepth, mem_map]
  constructor
  · rintro ⟨segment, hseg, rfl⟩
    obtain ⟨hmem, hname⟩ := mem_filter.1 hseg
    exact ⟨segment, hmem, by simpa using hname, rfl⟩
  · rintro ⟨segment, hmem, hname, rfl⟩
    exact ⟨segment, mem_filter.2 ⟨hmem, by simpa using hname⟩, rfl⟩

theorem of_mem_addOffsetDepth {name} (h : (name, x) ∈ addOffsetDepth datatypes left parent data) :
    ∃ left' segment, left = left' + 1 ∧ segment ∈ data.children ∧ name = segment.name ∧
      x = expandMember datatypes left' parent segment := by
  cases left with
  | zero => cases h
  | succ left =>
    obtain ⟨segment, hmem, -, heq⟩ := mem_addOffsetDepth_succ.1 h
    cases heq
    exact ⟨left, segment, rfl, hmem, rfl, rfl⟩

theorem subMembers_cases (datatypes : DataTypes) (left : Nat) (info : Info) :
    subMembers datatypes left info = [] ∨
      ∃ dt, datatypes info.dataType = some dt ∧ isEnumDataType dt = false ∧
        subMembers datatypes left info = addOffsetDepth datatypes left info dt := by
  unfold subMembers
  split
  · next dt hdt =>
    by_cases henum : isEnumDataType dt = true
    · exact .inl (if_pos henum)
    · exact .inr ⟨dt, hdt, by simpa using henum, if_neg henum⟩
  · exact .inl rfl

theorem subMembers_of_type {info} (hdt : datatypes info.dataType = some dt)
    (henum : isEnumDataType dt = false) :
    subMembers datatypes left info = addOffsetDepth datatypes left info dt := by
  simp [subMembers, hdt, henum]

/-! ## Paths and nodes -/

/-- A path of members through the table: an enum has none. -/
inductive MemberPath (datatypes : DataTypes) : DataType → List Segment → Prop
  | one {dt : DataType} {segment : Segment} (hmem : segment ∈ dt.children) :
      MemberPath datatypes dt [segment]
  | cons {dt dt' : DataType} {segment : Segment} {path : List Segment} (hmem : segment ∈ dt.children)
      (hdt : datatypes segment.dataType = some dt') (henum : isEnumDataType dt' = false)
      (rest : MemberPath datatypes dt' path) : MemberPath datatypes dt (segment :: path)

/-- A node of a tree, by the names on the way to it, with the chain of its parents from the inside out. -/
inductive Symbol.At : Symbol → List Name → List Info → Symbol → Prop
  | self (s : Symbol) : At s [] [] s
  | child {s c x : Symbol} {name : Name} {names : List Name} {parents : List Info}
      (hc : (name, c) ∈ s.children) (h : At c names parents x) :
      At s (name :: names) (parents ++ [s.info]) x

/-- The fields of the node at the end of a path. -/
def endOf (info : Info) (path : List Segment) : Info := path.foldl member info

/-- The chain of parents of the node at the end of a path. -/
def parentsAlong : Info → List Segment → List Info
  | _, [] => []
  | info, segment :: path => parentsAlong (member info segment) path ++ [info]

def namesAlong (path : List Segment) : List Name := path.map Segment.name

/-- The members of a type, their members and so on are at most so many levels. -/
def Levels (datatypes : DataTypes) : Nat → DataType → Prop
  | 0, _ => False
  | left + 1, dt => ∀ segment ∈ dt.children, ∀ dt', datatypes segment.dataType = some dt' →
      isEnumDataType dt' = false → Levels datatypes left dt'

section Nodes

variable {s x : Symbol} {left : Nat} {dt : DataType} {names : List Name} {parents : List Info}
  {path : List Segment}

theorem Symbol.At.of_leaf (h : s.At names parents x) (hs : s.children = []) :
    names = [] ∧ parents = [] ∧ x = s := by
  cases h with
  | self => exact ⟨rfl, rfl, rfl⟩
  | child hc =>
    rw [hs] at hc
    cases hc

/-- Every node of an expansion is at the end of a path, and its name continues that of the node around it. -/
theorem Symbol.At.exists_path (h : s.At names parents x)
    (hs : s.children = addOffsetDepth datatypes left s.info dt) (hne : names ≠ []) :
    (∃ path, MemberPath datatypes dt path ∧ names = namesAlong path ∧ parents = parentsAlong s.info path ∧
      x.info = endOf s.info path) ∧
    ∃ outer name p parents', names = outer ++ [name] ∧ parents = p.info :: parents' ∧
      s.At outer parents' p ∧ (name, x) ∈ p.children ∧ x.info.fullName = memberPath p.info.fullName name := by
  induction h generalizing left dt with
  | self => exact absurd rfl hne
  | @child s c x name names parents hc h ih =>
    obtain ⟨left, segment, rfl, hmem, rfl, rfl⟩ := of_mem_addOffsetDepth (hs ▸ hc)
    by_cases hnames : names = []
    · -- the node is the member itself
      subst hnames
      cases h with
      | self => exact ⟨⟨[segment], .one hmem, rfl, rfl, rfl⟩, [], _, s, [], rfl, rfl, .self s, hc, rfl⟩
    rcases subMembers_cases datatypes left (member s.info segment) with hnil | ⟨dt', hdt, henum, hsome⟩
    · exact absurd (h.of_leaf hnil).1 hnames
    obtain ⟨⟨path, hpath, hpaths, hparents, hx⟩, outer, last, p, parents', rfl, rfl, hp, hlast⟩ :=
      ih hsome hnames
    refine ⟨⟨segment :: path, .cons hmem hdt henum hpath, congrArg _ hpaths, congrArg (· ++ _) hparents,
      hx⟩, _ :: outer, last, p, parents' ++ [s.info], rfl, rfl, .child hc hp, hlast⟩

/-- Every path leads to a node, if its members have names and the levels do not end before. -/
theorem MemberPath.exists_at (hpath : MemberPath datatypes dt path)
    (hs : s.children = addOffsetDepth datatypes left s.info dt) (hlevels : Levels datatypes left dt)
    (hnamed : ∀ segment ∈ path, segment.name ≠ []) :
    ∃ x, s.At (namesAlong path) (parentsAlong s.info path) x := by
  induction hpath generalizing s left with
  | @one dt segment hmem =>
    cases left with
    | zero => cases hlevels
    | succ left =>
      have hname := hnamed segment (mem_cons_self ..)
      refine ⟨expandMember datatypes left s.info segment, .child ?_ (.self _)⟩
      rw [hs]
      exact mem_addOffsetDepth_succ.2 ⟨segment, hmem, hname, rfl⟩
  | @cons dt dt' segment path hmem hdt henum rest ih =>
    cases left with
    | zero => cases hlevels
    | succ left =>
      have hname := hnamed segment (mem_cons_self ..)
      have hsub : (expandMember datatypes left s.info segment).children =
          addOffsetDepth datatypes left (member s.info segment) dt' :=
        subMembers_of_type hdt henum
      obtain ⟨x, hx⟩ := ih hsub (hlevels segment hmem dt' hdt henum)
        fun segment' hmem' => hnamed segment' (mem_cons_of_mem _ hmem')
      refine ⟨x, .child ?_ hx⟩
      rw [hs]
      exact mem_addOffsetDepth_succ.2 ⟨segment, hmem, hname, rfl⟩

end Nodes

/-! ## Tables that are laid out well -/

/-- A name without a separator, or the name of an array element. -/
def IsSegmentName (name : Name) : Prop :=
  name ≠ [] ∧ (('.' ∉ name ∧ '[' ∉ name) ∨ ∃ index, name = '[' :: index ∧ '.' ∉ index ∧ '[' ∉ index)

/-- Every member lies inside its type and has a name of its own, up to case. -/
structure LaidOut (lower : Char → Char) (datatypes : DataTypes) (size : Name → UInt32) : Prop where
  inside : ∀ {n dt segment}, datatypes n = some dt → segment ∈ dt.children →
    segment.offs.toNat + segment.size.toNat ≤ (size n).toNat
  named : ∀ {n dt segment}, datatypes n = some dt → segment ∈ dt.children → IsSegmentName segment.name
  distinct : ∀ {n dt a b}, datatypes n = some dt → a ∈ dt.children → b ∈ dt.children →
    symbolKey lower a.name = symbolKey lower b.name → a = b

/-- Moreover, a member is as large as the type that it is expanded with. -/
structure WellLaid (lower : Char → Char) (datatypes : DataTypes) (size : Name → UInt32) : Prop extends
    LaidOut lower datatypes size where
  sized : ∀ {n dt segment dt'}, datatypes n = some dt → segment ∈ dt.children →
    datatypes segment.dataType = some dt' → isEnumDataType dt' = false →
      (size segment.dataType).toNat ≤ segment.size.toNat

/-- `strings.ToLower` neither makes nor removes a separator. -/
structure KeepsSeparators (lower : Char → Char) : Prop where
  dot : ∀ c, lower c = '.' ↔ c = '.'
  bracket : ∀ c, lower c = '[' ↔ c = '['

/-- `symbolSumAddress` of a node, with the chain of its parents. -/
def sumAddress (info : Info) (parents : List Info) : UInt32 × UInt32 :=
  let sym : Symbols.Symbol Unit Unit :=
    { desc :=
        { layout := (), length := info.length, group := info.group, offset := info.offset
          parents := parents.map Info.offset }
      handle := info.handle
      value := none }
  sym.sumAddress

/-- The offsets along a path, added up. -/
def offsetAlong (path : List Segment) : Nat := (path.map fun segment => segment.offs.toNat).sum

section Addresses

variable {info : Info} {path : List Segment} {dt : DataType} {size : Name → UInt32} {n : Name}

theorem group_endOf : (endOf info path).group = info.group := by
  induction path generalizing info with
  | nil => rfl
  | cons segment path ih =>
    show (endOf (member info segment) path).group = info.group
    rw [ih]
    rfl

theorem handle_endOf (hne : path ≠ []) : (endOf info path).handle = 0 := by
  induction path generalizing info with
  | nil => exact absurd rfl hne
  | cons segment path ih =>
    show (endOf (member info segment) path).handle = 0
    by_cases hpath : path = []
    · rw [hpath]
      rfl
    · exact ih hpath

theorem toNat_foldl_add (l : List UInt32) (a : UInt32) :
    (l.foldl (· + ·) a).toNat = (a.toNat + (l.map UInt32.toNat).sum) % 2 ^ 32 := by
  induction l generalizing a with
  | nil =>
    simp only [foldl_nil, map_nil, sum_nil, Nat.add_zero]
    exact (Nat.mod_eq_of_lt a.toNat_lt).symm
  | cons b l ih =>
    simp only [foldl_cons, ih, UInt32.toNat_add, map_cons, sum_cons]
    omega

/-- The offsets of a node and of its parents are those of the root and of the path. -/
theorem sum_offsets :
    (endOf info path).offset.toNat + ((parentsAlong info path).map fun p => p.offset.toNat).sum =
      info.offset.toNat + offsetAlong path := by
  induction path generalizing info with
  | nil => rfl
  | cons segment path ih =>
    have hmember : (member info segment).offset.toNat = segment.offs.toNat := rfl
    have hrest : (endOf (member info segment) path).offset.toNat +
        ((parentsAlong (member info segment) path).map fun p => p.offset.toNat).sum =
          (member info segment).offset.toNat + offsetAlong path := ih
    show (endOf (member info segment) path).offset.toNat +
      ((parentsAlong (member info segment) path ++ [info]).map fun p => p.offset.toNat).sum = _
    have hoffset : offsetAlong (segment :: path) = segment.offs.toNat + offsetAlong path := rfl
    rw [map_append, sum_append, map_singleton, sum_singleton, hoffset]
    omega

/-- **The address of a node** is the offset of the root and those along the path, as long as this is a
    32-bit number. -/
theorem sumAddress_endOf (hgroup : info.group ≠ 0) (hne : path ≠ [])
    (hroom : info.offset.toNat + offsetAlong path < 2 ^ 32) :
    sumAddress (endOf info path) (parentsAlong info path) =
      (info.group, UInt32.ofNat (info.offset.toNat + offsetAlong path)) := by
  have hsum : (((parentsAlong info path).map Info.offset).foldl (· + ·) (endOf info path).offset).toNat =
      info.offset.toNat + offsetAlong path := by
    rw [toNat_foldl_add, map_map, ← Nat.mod_eq_of_lt hroom, ← sum_offsets]
    rfl
  have hoffset : ((parentsAlong info path).map Info.offset).foldl (· + ·) (endOf info path).offset =
      UInt32.ofNat (info.offset.toNat + offsetAlong path) := by
    rw [← hsum, UInt32.ofNat_toNat]
  rw [sumAddress, Symbols.Symbol.sumAddress, handle_endOf hne, group_endOf]
  simp [hgroup, hoffset]

/-- **The range of a node is inside the type it is a member of**, at whatever depth. -/
theorem MemberPath.inside (hlaid : WellLaid lower datatypes size) (hpath : MemberPath datatypes dt path)
    (hdt : datatypes n = some dt) : offsetAlong path + (endOf info path).length.toNat ≤ (size n).toNat := by
  induction hpath generalizing n info with
  | @one dt segment hmem =>
    have hin := hlaid.inside hdt hmem
    show offsetAlong [segment] + segment.size.toNat ≤ (size n).toNat
    have hoffset : offsetAlong [segment] = segment.offs.toNat := Nat.add_zero _
    omega
  | @cons dt dt' segment path hmem hdt' henum rest ih =>
    have hin := hlaid.inside hdt hmem
    have hsized := hlaid.sized hdt hmem hdt' henum
    have hrest : offsetAlong path + (endOf (member info segment) path).length.toNat ≤ _ := ih hdt'
    have hoffset : offsetAlong (segment :: path) = segment.offs.toNat + offsetAlong path := rfl
    show offsetAlong (segment :: path) + (endOf (member info segment) path).length.toNat ≤ (size n).toNat
    omega

theorem MemberPath.named (hlaid : LaidOut lower datatypes size) (hpath : MemberPath datatypes dt path)
    (hdt : datatypes n = some dt) : ∀ segment ∈ path, IsSegmentName segment.name := by
  induction hpath generalizing n with
  | @one dt segment hmem =>
    intro segment' hmem'
    obtain rfl := mem_singleton.1 hmem'
    exact hlaid.named hdt hmem
  | @cons dt dt' segment path hmem hdt' henum rest ih =>
    intro segment' hmem'
    rcases mem_cons.1 hmem' with rfl | hmem'
    · exact hlaid.named hdt hmem
    · exact ih hdt' segment' hmem'

end Addresses

/-! ## Keys -/

/-- What a member adds to the key of its parent. -/
def keyPart (lower : Char → Char) (name : Name) : Name :=
  if name.head? = some '[' then symbolKey lower name else '.' :: symbolKey lower name

def IsSeparator (c : Char) : Prop := c = '.' ∨ c = '['

theorem append_inj_of_separator {t t' rest rest' : Name} (ht : ∀ c ∈ t, ¬ IsSeparator c)
    (ht' : ∀ c ∈ t', ¬ IsSeparator c) (hrest : ∀ c ∈ rest.head?, IsSeparator c)
    (hrest' : ∀ c ∈ rest'.head?, IsSeparator c) (h : t ++ rest = t' ++ rest') : t = t' ∧ rest = rest' := by
  induction t generalizing t' with
  | nil =>
    cases t' with
    | nil => exact ⟨rfl, h⟩
    | cons c =>
      -- the other text goes on where this one has ended
      have hc : IsSeparator c := hrest c (by rw [nil_append] at h; rw [h]; rfl)
      exact absurd hc (ht' c (mem_cons_self ..))
  | cons c t ih =>
    cases t' with
    | nil =>
      have hc : IsSeparator c := hrest' c (by rw [nil_append] at h; rw [← h]; rfl)
      exact absurd hc (ht c (mem_cons_self ..))
    | cons =>
      obtain ⟨rfl, htail⟩ := cons.inj h
      obtain ⟨rfl, rfl⟩ := ih (fun d hd => ht d (mem_cons_of_mem _ hd))
        (fun d hd => ht' d (mem_cons_of_mem _ hd)) htail
      exact ⟨rfl, rfl⟩

section Keys

variable {name name' : Name} {path path' : List Segment} {dt : DataType} {size : Name → UInt32} {n : Name}

section

variable (hl : KeepsSeparators lower)

include hl

theorem KeepsSeparators.isSeparator (c : Char) : IsSeparator (lower c) ↔ IsSeparator c := by
  rw [IsSeparator, IsSeparator, hl.dot, hl.bracket]

theorem symbolKey_memberPath (parent : Name) :
    symbolKey lower (memberPath parent name) = symbolKey lower parent ++ keyPart lower name := by
  have hdot : lower '.' = '.' := (hl.dot '.').2 rfl
  unfold memberPath keyPart
  split
  · exact map_append
  · simp [symbolKey, hdot]

theorem not_separator_symbolKey (hdot : '.' ∉ name) (hbracket : '[' ∉ name) :
    ∀ c ∈ symbolKey lower name, ¬ IsSeparator c := by
  intro c hc
  obtain ⟨d, hd, rfl⟩ := mem_map.1 hc
  rw [hl.isSeparator]
  rintro (rfl | rfl)
  · exact hdot hd
  · exact hbracket hd

/-- The part of a member is a separator and a text without one, which give its name up to case. -/
theorem keyPart_spec (hname : IsSegmentName name) :
    ∃ sep text, keyPart lower name = sep :: text ∧ IsSeparator sep ∧ (∀ c ∈ text, ¬ IsSeparator c) ∧
      symbolKey lower name = if sep = '[' then '[' :: text else text := by
  obtain ⟨hne, ⟨hdot, hbracket⟩ | ⟨index, rfl, hdot, hbracket⟩⟩ := hname
  · have hhead : name.head? ≠ some '[' := fun h => hbracket (mem_of_head? h)
    refine ⟨'.', symbolKey lower name, if_neg hhead, .inl rfl, ?_, ?_⟩
    · exact not_separator_symbolKey hl hdot hbracket
    · rw [if_neg (by decide)]
  have hlow : lower '[' = '[' := (hl.bracket '[').2 rfl
  have hkey : symbolKey lower ('[' :: index) = '[' :: symbolKey lower index := by
    simp [symbolKey, hlow]
  refine ⟨'[', symbolKey lower index, ?_, .inr rfl, not_separator_symbolKey hl hdot hbracket, ?_⟩
  · rw [keyPart, head?_cons, if_pos rfl, hkey]
  · rw [if_pos rfl, hkey]

end

/-- What a path adds to the key of the root. -/
def keyAlong (lower : Char → Char) (path : List Segment) : Name :=
  ((namesAlong path).map (keyPart lower)).flatten

theorem keyAlong_cons (segment : Segment) (path : List Segment) :
    keyAlong lower (segment :: path) = keyPart lower segment.name ++ keyAlong lower path := rfl

section

variable (hl : KeepsSeparators lower)

include hl

theorem symbolKey_endOf (info : Info) (path : List Segment) :
    symbolKey lower (endOf info path).fullName = symbolKey lower info.fullName ++ keyAlong lower path := by
  induction path generalizing info with
  | nil => exact (append_nil _).symm
  | cons segment path ih =>
    show symbolKey lower (endOf (member info segment) path).fullName = _
    rw [ih, keyAlong_cons, ← append_assoc]
    congr 1
    exact symbolKey_memberPath hl info.fullName

theorem head_keyAlong (hnamed : ∀ segment ∈ path, IsSegmentName segment.name) :
    ∀ c ∈ (keyAlong lower path).head?, IsSeparator c := by
  cases path with
  | nil => simp [keyAlong, namesAlong]
  | cons segment =>
    obtain ⟨sep, text, hpart, hsep, -⟩ := keyPart_spec hl (hnamed segment (mem_cons_self ..))
    intro c hc
    rw [keyAlong_cons, hpart] at hc
    obtain rfl : sep = c := Option.some.inj hc
    exact hsep

theorem keyAlong_ne_nil (hne : path ≠ [])
    (hnamed : ∀ segment ∈ path, IsSegmentName segment.name) : keyAlong lower path ≠ [] := by
  cases path with
  | nil => exact absurd rfl hne
  | cons segment =>
    obtain ⟨sep, text, hpart, -⟩ := keyPart_spec hl (hnamed segment (mem_cons_self ..))
    rw [keyAlong_cons, hpart]
    exact cons_ne_nil _ _

/-- Members of one type whose paths have one key are one member: a part ends where the next separator
    stands. -/
theorem keyAlong_cons_inj (hlaid : LaidOut lower datatypes size)
    {a b : Segment} (hdt : datatypes n = some dt) (ha : a ∈ dt.children) (hb : b ∈ dt.children)
    (hpath : ∀ segment ∈ path, IsSegmentName segment.name)
    (hpath' : ∀ segment ∈ path', IsSegmentName segment.name)
    (h : keyAlong lower (a :: path) = keyAlong lower (b :: path')) :
    a = b ∧ keyAlong lower path = keyAlong lower path' := by
  obtain ⟨sep, text, hpart, -, htext, hkey⟩ := keyPart_spec hl (hlaid.named hdt ha)
  obtain ⟨sep', text', hpart', -, htext', hkey'⟩ := keyPart_spec hl (hlaid.named hdt hb)
  rw [keyAlong_cons, keyAlong_cons, hpart, hpart'] at h
  obtain ⟨rfl, htail⟩ := cons.inj h
  obtain ⟨rfl, hrest⟩ :=
    append_inj_of_separator htext htext' (head_keyAlong hl hpath) (head_keyAlong hl hpath') htail
  exact ⟨hlaid.distinct hdt ha hb (hkey.trans hkey'.symm), hrest⟩

end

theorem MemberPath.ne_nil (hpath : MemberPath datatypes dt path) : path ≠ [] := by
  cases hpath with
  | one | cons => exact cons_ne_nil _ _

theorem MemberPath.eq_of_key (hl : KeepsSeparators lower) (hlaid : LaidOut lower datatypes size)
    (hpath : MemberPath datatypes dt path) (hpath' : MemberPath datatypes dt path')
    (hdt : datatypes n = some dt) (h : keyAlong lower path = keyAlong lower path') : path = path' := by
  have hnone : ∀ segment ∈ ([] : List Segment), IsSegmentName segment.name := by
    intro segment hmem
    cases hmem
  induction hpath generalizing path' n with
  | @one dt a hmem =>
    cases hpath' with
    | one hmem' => rw [(keyAlong_cons_inj hl hlaid hdt hmem hmem' hnone hnone h).1]
    | cons hmem' hdt' henum rest =>
      have hnamed := rest.named hlaid hdt'
      have hrest := (keyAlong_cons_inj hl hlaid hdt hmem hmem' hnone hnamed h).2
      exact absurd hrest.symm (keyAlong_ne_nil hl rest.ne_nil hnamed)
  | @cons dt dt' a path hmem hdt' henum rest ih =>
    have hnamed := rest.named hlaid hdt'
    cases hpath' with
    | one hmem' =>
      have hrest := (keyAlong_cons_inj hl hlaid hdt hmem hmem' hnamed hnone h).2
      exact absurd hrest (keyAlong_ne_nil hl rest.ne_nil hnamed)
    | cons hmem' hdt'' henum' rest' =>
      obtain ⟨rfl, hrest⟩ := keyAlong_cons_inj hl hlaid hdt hmem hmem' hnamed (rest'.named hlaid hdt'') h
      cases hdt'.symm.trans hdt''
      rw [ih rest' hdt' hrest]

end Keys

/-! ## The tree of a symbol -/

section Tree

variable {s x x' : Symbol} {left : Nat} {dt : DataType} {names : List Name} {parents parents' : List Info}
  {size : Name → UInt32} {n : Name} {m m' : SymbolMap}

theorem Symbol.At.unique (hlaid : LaidOut lower datatypes size) (hdt : datatypes n = some dt)
    (hs : s.children = addOffsetDepth datatypes left s.info dt) (h : s.At names parents x)
    (h' : s.At names parents' x') : parents' = parents ∧ x' = x := by
  induction h generalizing left dt n parents' x' with
  | self =>
    cases h' with
    | self => exact ⟨rfl, rfl⟩
  | @child s c x name names parents hc h ih =>
    cases h' with
    | @child _ c' _ _ _ parents' hc' h' =>
      obtain ⟨left, a, rfl, ha, rfl, rfl⟩ := of_mem_addOffsetDepth (hs ▸ hc)
      obtain ⟨left', b, hleft, hb, hname, rfl⟩ := of_mem_addOffsetDepth (hs ▸ hc')
      obtain rfl := Nat.succ.inj hleft
      obtain rfl := hlaid.distinct hdt ha hb (by rw [hname])
      rcases subMembers_cases datatypes left (member s.info a) with hnil | ⟨dt', hdt', -, hsome⟩
      · obtain ⟨-, rfl, rfl⟩ := h.of_leaf hnil
        obtain ⟨-, rfl, rfl⟩ := h'.of_leaf hnil
        exact ⟨rfl, rfl⟩
      · obtain ⟨rfl, rfl⟩ := ih hdt' hsome h'
        exact ⟨rfl, rfl⟩

theorem Symbol.At.eq_of_key (hl : KeepsSeparators lower) (hlaid : LaidOut lower datatypes size)
    (hdt : datatypes n = some dt) (hs : s.children = addOffsetDepth datatypes left s.info dt)
    {names'} (h : s.At names parents x) (h' : s.At names' parents' x') (hne : names ≠ [])
    (hne' : names' ≠ []) (hkey : x.key lower = x'.key lower) : x = x' := by
  obtain ⟨⟨path, hpath, rfl, -, hx⟩, -⟩ := h.exists_path hs hne
  obtain ⟨⟨path', hpath', rfl, -, hx'⟩, -⟩ := h'.exists_path hs hne'
  rw [Symbol.key, Symbol.key, hx, hx', symbolKey_endOf hl, symbolKey_endOf hl] at hkey
  obtain rfl := hpath.eq_of_key hl hlaid hpath' hdt (append_cancel_left hkey)
  exact (h.unique hlaid hdt hs h').2.symm

theorem exists_at_of_exposed {ns} (h : ExposedIn lower m ns x) (hns : ∀ c ∈ ns, c ∈ s.kids) :
    ∃ names parents, names ≠ [] ∧ s.At names parents x := by
  induction h generalizing s with
  | @here ns x hx hfree =>
    obtain ⟨⟨name, c⟩, hc, rfl⟩ := mem_map.1 (hns x hx)
    exact ⟨[name], _, cons_ne_nil _ _, .child hc (.self c)⟩
  | @under ns p x hp hfree hx ih =>
    obtain ⟨⟨name, c⟩, hc, rfl⟩ := mem_map.1 (hns p hp)
    obtain ⟨names, parents, -, hat⟩ := ih (s := c) fun y hy => hy
    exact ⟨name :: names, _, cons_ne_nil _ _, .child hc hat⟩

theorem Symbol.At.exposed (h : s.At names parents x) (hne : names ≠ [])
    (hfree : ∀ names parents y, s.At names parents y → names ≠ [] → y.key lower ∉ m) :
    ExposedIn lower m s.kids x := by
  induction h with
  | self => exact absurd rfl hne
  | @child s c x name names parents hc h ih =>
    have hkid : c ∈ s.kids := mem_map.2 ⟨_, hc, rfl⟩
    have hkey : c.key lower ∉ m := hfree _ _ c (.child hc (.self c)) (cons_ne_nil _ _)
    by_cases hnames : names = []
    · subst hnames
      cases h with
      | self => exact .here hkid hkey
    refine .under hkid hkey (ih hnames ?_)
    intro names' parents' y hy hne'
    exact hfree _ _ y (.child hc hy) (cons_ne_nil _ _)

/-- **`addChildren` files every node under its own key**, in whatever order it ranges over the members. -/
theorem lookup_addChildren (hl : KeepsSeparators lower) (hlaid : LaidOut lower datatypes size)
    (hdt : datatypes n = some dt) (hs : s.children = addOffsetDepth datatypes left s.info dt)
    (hfree : ∀ names parents y, s.At names parents y → names ≠ [] → y.key lower ∉ m)
    (hadd : AddChildren lower s m m') (h : s.At names parents x) (hne : names ≠ []) :
    m'.lookup (x.key lower) = some x := by
  obtain ⟨order, hperm, hfill⟩ := hadd
  have hexposed : ∀ y, ExposedIn lower m order y → ∃ names parents, names ≠ [] ∧ s.At names parents y :=
    fun y hy => exists_at_of_exposed hy fun c hc => hperm.mem_iff.1 hc
  refine lookup_of_exposed (fun y => ∃ names parents, names ≠ [] ∧ s.At names parents y) ?_ ?_ ?_
    hfill.covers hexposed ((h.exposed hne hfree).mono hperm.symm.subset)
  · rintro y y' ⟨names, parents, hne, hy⟩ ⟨names', parents', hne', hy'⟩ hkey
    exact hy.eq_of_key hl hlaid hdt hs hy' hne hne' hkey
  · intro k y hy hk
    rcases hfill.origin hy with hy | ⟨-, hkey, hexp, -⟩
    · exact absurd (Finmap.mem_of_lookup_eq_some hy) hk
    · exact ⟨hexposed y hexp, hkey⟩
  intro k y hy hk
  rcases hfill.origin hy with hy | ⟨-, -, -, hkids⟩
  · exact absurd (Finmap.mem_of_lookup_eq_some hy) hk
  · exact hkids

end Tree

/-- Where a node of a symbol's tree is: among the children of the node around it, which the source's
    `Parent` points to and the model has as the first of `parents`, with a name that continues the name
    and separator of that node; at the sum of the offsets along its path; and inside the symbol. -/
structure Placed (u : Upload) (root x : Symbol) (names : List Name) (parents : List Info)
    (path : List Segment) : Prop where
  names_eq : names = namesAlong path
  enclosing : ∃ outer name p parents', names = outer ++ [name] ∧ parents = p.info :: parents' ∧
    root.At outer parents' p ∧ (name, x) ∈ p.children ∧
      x.info.fullName = memberPath p.info.fullName name
  address : sumAddress x.info parents = (u.group, UInt32.ofNat (u.offset.toNat + offsetAlong path))
  noWrap : u.offset.toNat + offsetAlong path < 2 ^ 32
  inside : offsetAlong path + x.info.length.toNat ≤ u.size.toNat

theorem children_addSymbol (hdt : datatypes u.dataType = some dt) : (addSymbol datatypes u).children =
      addOffsetDepth datatypes addOffsetMaxDepth (addSymbol datatypes u).info dt := by
  have hbuild : addSymbol datatypes u = .mk u.symbol.info (addOffset datatypes u.symbol.info dt) :=
    Symbol.build_of_some hdt
  rw [hbuild]
  rfl

theorem info_addSymbol (u : Upload) : (addSymbol datatypes u).info = u.symbol.info :=
  Symbol.info_build

theorem Symbol.At.placed {size : Name → UInt32} {names parents} (hlaid : WellLaid lower datatypes size)
    (hdt : datatypes u.dataType = some dt) (hsize : u.size = size u.dataType)
    (hroom : u.offset.toNat + u.size.toNat < 2 ^ 32) (hgroup : u.group ≠ 0)
    (h : (addSymbol datatypes u).At names parents x) (hne : names ≠ []) :
    ∃ path, MemberPath datatypes dt path ∧ Placed u (addSymbol datatypes u) x names parents path := by
  have hs := children_addSymbol hdt
  obtain ⟨⟨path, hpath, hnames, hparents, hx⟩, henclosing⟩ := h.exists_path hs hne
  have hinside : offsetAlong path + x.info.length.toNat ≤ u.size.toNat := by
    rw [hx, hsize]
    exact hpath.inside hlaid hdt
  have hnoWrap : u.offset.toNat + offsetAlong path < 2 ^ 32 := by omega
  refine ⟨path, hpath, hnames, henclosing, ?_, hnoWrap, hinside⟩
  rw [hx, hparents, info_addSymbol]
  exact sumAddress_endOf hgroup hpath.ne_nil hnoWrap

/-- **Every member is where its path leads.**  The tree that `addSymbol` builds has exactly one node for
    every path of members, and every node is placed as its path says; and `addChildren` files every node
    under the key of its name, if no other symbol has the key. -/
theorem expansion_placed {size : Name → UInt32} {u : Upload} {dt : DataType} (hl : KeepsSeparators lower)
    (hlaid : WellLaid lower datatypes size) (hdt : datatypes u.dataType = some dt)
    (hlevels : Levels datatypes addOffsetMaxDepth dt) (hsize : u.size = size u.dataType)
    (hroom : u.offset.toNat + u.size.toNat < 2 ^ 32) (hgroup : u.group ≠ 0) :
    (∀ path, MemberPath datatypes dt path →
        (∃! node : List Info × Symbol, (addSymbol datatypes u).At (namesAlong path) node.1 node.2) ∧
          ∀ path', MemberPath datatypes dt path' → namesAlong path' = namesAlong path → path' = path) ∧
      (∀ names parents x, (addSymbol datatypes u).At names parents x → names ≠ [] →
        ∃ path, MemberPath datatypes dt path ∧ Placed u (addSymbol datatypes u) x names parents path) ∧
      ∀ m m', (∀ names parents x, (addSymbol datatypes u).At names parents x → names ≠ [] →
          x.key lower ∉ m) →
        AddChildren lower (addSymbol datatypes u) m m' →
        ∀ names parents x, (addSymbol datatypes u).At names parents x → names ≠ [] →
          m'.lookup (symbolKey lower x.info.fullName) = some x := by
  have hs := children_addSymbol hdt
  refine ⟨?_, ?_, ?_⟩
  · intro path hpath
    have hnamed : ∀ segment ∈ path, segment.name ≠ [] := fun segment hmem =>
      (hpath.named hlaid.toLaidOut hdt segment hmem).1
    obtain ⟨x, hx⟩ := hpath.exists_at hs hlevels hnamed
    refine ⟨⟨(_, x), hx, ?_⟩, ?_⟩
    · rintro ⟨parents', x'⟩ hx'
      obtain ⟨hparents, hnode⟩ := hx.unique hlaid.toLaidOut hdt hs hx'
      exact Prod.ext hparents hnode
    intro path' hpath' hnames
    apply hpath'.eq_of_key hl hlaid.toLaidOut hpath hdt
    rw [keyAlong, keyAlong, hnames]
  · intro names parents x hx hne
    exact hx.placed hlaid hdt hsize hroom hgroup hne
  · intro m m' hfree hadd names parents x hx hne
    exact lookup_addChildren hl hlaid.toLaidOut hdt hs hfree hadd hx hne

/-! ### An axis with two positions -/

theorem keepsSeparators_toLower : KeepsSeparators Char.toLower := by
  -- a letter of the alphabet and its lower case are no separators
  have hkeep : ∀ d : Char, (d.val.toNat < 97 ∨ 122 < d.val.toNat) → (d.val.toNat < 65 ∨ 90 < d.val.toNat) →
      ∀ c : Char, c.toLower = d ↔ c = d := by
    intro d hlow hupp c
    unfold Char.toLower
    split
    · next hc =>
      have hge := UInt32.le_iff_toNat_le.1 hc.1
      have hle := UInt32.le_iff_toNat_le.1 hc.2
      have hA : 'A'.val.toNat = 65 := rfl
      have hZ : 'Z'.val.toNat = 90 := rfl
      constructor
      · rintro rfl
        have hval : (c.val + ('a'.val - 'A'.val)).toNat = c.val.toNat + 32 := by
          rw [UInt32.toNat_add]
          show (c.val.toNat + 32) % 2 ^ 32 = _
          omega
        dsimp only at hlow
        omega
      · rintro rfl
        omega
    · exact Iff.rfl
  exact ⟨hkeep '.' (by decide) (by decide), hkeep '[' (by decide) (by decide)⟩

/-- An array of two INT. -/
def posType : DataType where
  dataType := "INT".toList
  arrayDim := 1
  children := [⟨"[0]".toList, "INT".toList, 2, 0, 0⟩, ⟨"[1]".toList, "INT".toList, 2, 0, 2⟩]
  sorted := by decide

/-- A struct whose first member, of so many bytes, has the type of the positions. -/
def axisType (posSize : UInt32) : DataType where
  dataType := []
  arrayDim := 0
  children := [⟨"pos".toList, "POS".toList, posSize, 65, 0⟩, ⟨"state".toList, "INT".toList, 2, 2, posSize⟩]
  sorted := by
    simp only [pairwise_cons, mem_singleton, forall_eq, not_mem_nil, false_imp_iff,
      implies_true, Pairwise.nil, and_true]
    decide

def axisTypes (posSize : UInt32) : DataTypes := fun name =>
  if name = "AXIS".toList then some (axisType posSize)
  else if name = "POS".toList then some posType
  else none

def axisSize (posSize : UInt32) (name : Name) : UInt32 := if name = "AXIS".toList then posSize + 2 else 4

/-- `MAIN.axis`. -/
def axis (posSize : UInt32) : Upload :=
  { name := "MAIN.axis".toList, dataType := "AXIS".toList, size := posSize + 2, baseType := 65
    group := 0x4040, offset := 1000 }

theorem axisTypes_cases {n} (h : axisTypes posSize n = some dt) :
    n = "AXIS".toList ∧ dt = axisType posSize ∨ n = "POS".toList ∧ dt = posType := by
  unfold axisTypes at h
  split at h
  · next hn => exact .inl ⟨hn, (Option.some.inj h).symm⟩
  split at h
  · next hn => exact .inr ⟨hn, (Option.some.inj h).symm⟩
  · cases h

theorem mem_axisType (h : segment ∈ (axisType posSize).children) :
    segment = ⟨"pos".toList, "POS".toList, posSize, 65, 0⟩ ∨
      segment = ⟨"state".toList, "INT".toList, 2, 2, posSize⟩ := by
  simpa [axisType] using h

theorem mem_posType (h : segment ∈ posType.children) :
    segment = ⟨"[0]".toList, "INT".toList, 2, 0, 0⟩ ∨ segment = ⟨"[1]".toList, "INT".toList, 2, 0, 2⟩ := by
  simpa [posType] using h

/-- Whether or not the array is as large as its elements, members are inside their types and have names of
    their own. -/
theorem laidOut_axis (hsize : posSize = 1 ∨ posSize = 4) :
    LaidOut Char.toLower (axisTypes posSize) (axisSize posSize) where
  inside hdt hmem := by
    rcases axisTypes_cases hdt with ⟨rfl, rfl⟩ | ⟨rfl, rfl⟩
    · rcases hsize with rfl | rfl <;> rcases mem_axisType hmem with rfl | rfl <;> decide
    · show _ ≤ 4
      rcases mem_posType hmem with rfl | rfl <;> decide
  named hdt hmem := by
    rcases axisTypes_cases hdt with ⟨rfl, rfl⟩ | ⟨rfl, rfl⟩
    · rcases mem_axisType hmem with rfl | rfl
      · show IsSegmentName "pos".toList
        exact ⟨by decide, .inl (by decide)⟩
      · show IsSegmentName "state".toList
        exact ⟨by decide, .inl (by decide)⟩
    rcases mem_posType hmem with rfl | rfl
    · exact ⟨by decide, .inr ⟨"0]".toList, by decide, by decide, by decide⟩⟩
    · exact ⟨by decide, .inr ⟨"1]".toList, by decide, by decide, by decide⟩⟩
  distinct hdt ha hb heq := by
    have hne : symbolKey Char.toLower "pos".toList ≠ symbolKey Char.toLower "state".toList := by decide
    rcases axisTypes_cases hdt with ⟨rfl, rfl⟩ | ⟨rfl, rfl⟩
    · rcases mem_axisType ha with rfl | rfl <;> rcases mem_axisType hb with rfl | rfl
      · rfl
      · exact absurd heq hne
      · exact absurd heq.symm hne
      · rfl
    rcases mem_posType ha with rfl | rfl <;> rcases mem_posType hb with rfl | rfl
    · rfl
    · exact absurd heq (by decide)
    · exact absurd heq (by decide)
    · rfl

theorem levels_axis (posSize : UInt32) :
    Levels (axisTypes posSize) addOffsetMaxDepth (axisType posSize) := by
  have hint : axisTypes posSize "INT".toList = none := rfl
  show ∀ segment ∈ (axisType posSize).children, _
  intro segment hmem dt hdt henum
  rcases mem_axisType hmem with rfl | rfl
  · obtain rfl : posType = dt := Option.some.inj hdt
    show ∀ segment ∈ posType.children, _
    intro segment hmem dt' hdt'
    rcases mem_posType hmem with rfl | rfl
    · cases hint.symm.trans hdt'
    · cases hint.symm.trans hdt'
  · cases hint.symm.trans hdt

/-- The path to the second position. -/
def secondPos (posSize : UInt32) : List Segment :=
  [⟨"pos".toList, "POS".toList, posSize, 65, 0⟩, ⟨"[1]".toList, "INT".toList, 2, 0, 2⟩]

theorem memberPath_secondPos (posSize : UInt32) :
    MemberPath (axisTypes posSize) (axisType posSize) (secondPos posSize) :=
  .cons (mem_cons_self ..) rfl rfl (.one (mem_cons_of_mem _ (mem_cons_self ..)))

theorem wellLaid_axis : WellLaid Char.toLower (axisTypes 4) (axisSize 4) where
  toLaidOut := laidOut_axis (.inr rfl)
  sized hdt hmem hdt' henum := by
    rcases axisTypes_cases hdt with ⟨rfl, rfl⟩ | ⟨rfl, rfl⟩
    · rcases mem_axisType hmem with rfl | rfl
      · decide
      · cases hdt'
    rcases mem_posType hmem with rfl | rfl
    · cases hdt'
    · cases hdt'

/-- `MAIN.axis.pos[1]` is two bytes behind `MAIN.axis`. -/
theorem expansion_placed_axis : ∃ node : List Info × Symbol,
      (addSymbol (axisTypes 4) (axis 4)).At ["pos".toList, "[1]".toList] node.1 node.2 ∧
        sumAddress node.2.info node.1 = (0x4040, 1002) := by
  have hplaced := expansion_placed keepsSeparators_toLower wellLaid_axis (u := axis 4) rfl (levels_axis 4) rfl
    (by decide) (by decide)
  obtain ⟨⟨node, hnode, -⟩, hpaths⟩ := hplaced.1 (secondPos 4) (memberPath_secondPos 4)
  obtain ⟨path, hpath, hplace⟩ := hplaced.2.1 _ _ _ hnode (cons_ne_nil _ _)
  obtain rfl := hpaths path hpath hplace.names_eq.symm
  exact ⟨node, hnode, hplace.address⟩

/-- A member that is said to be smaller than its type: the table gives the array one byte, and its second
    element reaches behind the end of the symbol. -/
theorem undersized_member_outside :
    LaidOut Char.toLower (axisTypes 1) (axisSize 1) ∧ axisTypes 1 (axis 1).dataType = some (axisType 1) ∧
      Levels (axisTypes 1) addOffsetMaxDepth (axisType 1) ∧ (axis 1).size = axisSize 1 (axis 1).dataType ∧
      (axis 1).offset.toNat + (axis 1).size.toNat < 2 ^ 32 ∧ (axis 1).group ≠ 0 ∧
      ∃ parents x, (addSymbol (axisTypes 1) (axis 1)).At ["pos".toList, "[1]".toList] parents x ∧
        sumAddress x.info parents = (0x4040, 1002) ∧
        (axis 1).offset.toNat + (axis 1).size.toNat < 1002 + x.info.length.toNat := by
  have hdt : axisTypes 1 (axis 1).dataType = some (axisType 1) := rfl
  obtain ⟨x, hx⟩ := (memberPath_secondPos 1).exists_at (children_addSymbol hdt) (levels_axis 1) (by decide)
  have hinfo : x.info = endOf (axis 1).symbol.info (secondPos 1) := by
    obtain ⟨⟨path, hpath, hnames, -, hinfo⟩, -⟩ := hx.exists_path (children_addSymbol hdt) (cons_ne_nil _ _)
    have hkey : keyAlong Char.toLower path = keyAlong Char.toLower (secondPos 1) := by
      rw [keyAlong, keyAlong, hnames]
    rwa [hpath.eq_of_key keepsSeparators_toLower (laidOut_axis (.inl rfl)) (memberPath_secondPos 1) hdt hkey]
      at hinfo
  refine ⟨laidOut_axis (.inl rfl), hdt, levels_axis 1, rfl, by decide, by decide, _, x, hx, ?_, ?_⟩
  · rw [hinfo]
    rfl
  · rw [hinfo]
    decide

end GoAds.Discovery
