import StylesheetTrace.Proofs.Report.Given
import StylesheetTrace.Proofs.Report.StartAttribute

/-!
# Any start tag of a block

A block whose start tag has attributes of any name is read as the block with the same name and no
attributes would be, with the visible part of its attributes behind what is read there, and with the
rest of its tag before its content (`block?_startTag`). The rest holds no markup, so that the
message is the same. So where the attributes are clear, the violation of a block depends on the values of
`id`, `flag` and `location` alone, and a report states the same violations with any other attributes
(`violation_of_startTag`).
-/

namespace StylesheetTrace.Report

open StylesheetTrace.Text StylesheetTrace.Entity StylesheetTrace.Markup

/-! ## Start tags -/

/-- The start tag of a block. -/
structure StartTag where
  /-- The kind of the block. -/
  kind : BlockKind
  /-- The prefix of the tag. -/
  qualifier : Option Qualifier
  /-- The attributes in their order. -/
  attributes : List StartAttribute
  /-- The blanks behind the attributes. -/
  trailing : List Char
  /-- No two attributes have one name. -/
  nodup : (attributes.map StartAttribute.name).Nodup
  /-- Behind the attributes stand only blanks. -/
  trailing_blank : ∀ c ∈ trailing, isBlank c = true

namespace StartTag

/-- The name of the tag. -/
def qname (t : StartTag) : QName := ⟨t.qualifier, t.kind.localName⟩

/-- The attributes and the blanks behind them. -/
def inside (t : StartTag) : List Char := t.attributes.flatMap StartAttribute.chars ++ t.trailing

/-- The characters of the tag. -/
def chars (t : StartTag) : List Char := '<' :: (t.qname.chars ++ (t.inside ++ ['>']))

/-- The tag of the same name without attributes. -/
def bare (t : StartTag) : List Char := '<' :: (t.qname.chars ++ ['>'])

/-- What stands behind the first `>` of the tag. -/
def hidden (t : StartTag) : List Char := (t.inside.dropWhile (· != '>') ++ ['>']).tail

/-- The value of a field as it is written, if the tag has the attribute. -/
def value? (t : StartTag) (f : Field) : Option (List Char) :=
  (t.attributes.find? fun a => a.name == f.name.toList).map StartAttribute.value

/-- The violation has the values that the tag gives for the fields, or their defaults. -/
structure Gives (t : StartTag) (v : Violation) : Prop where
  /-- An empty identifier is none. -/
  ruleId_ne : v.ruleId ≠ some ""
  /-- The identifier is that of the tag. -/
  ruleId : HasValue (t.value? .id) "" (v.ruleId.getD "")
  /-- The flag is that of the tag, or `error`. -/
  flag : HasValue (t.value? .flag) "error" v.flag
  /-- The location is that of the tag. -/
  location : HasValue (t.value? .location) "" v.location

variable (t : StartTag)

/-- The inside of a tag is cut at its first `>`. -/
theorem inside_append (s : List Char) :
    t.inside ++ '>' :: s = visible t.inside ++ '>' :: (t.hidden ++ s) := by
  have hcut : t.inside = visible t.inside ++ t.inside.dropWhile (· != '>') :=
    List.takeWhile_append_dropWhile.symm
  have hhead := List.head?_dropWhile_not (· != '>') t.inside
  unfold hidden
  cases hrest : t.inside.dropWhile (· != '>') with
  | nil =>
    rw [hrest, List.append_nil] at hcut
    rw [← hcut]
    rfl
  | cons c u =>
    rw [hrest] at hhead hcut
    obtain rfl : c = '>' := by simpa using hhead
    calc t.inside ++ '>' :: s = (visible t.inside ++ '>' :: u) ++ '>' :: s := by rw [← hcut]
      _ = visible t.inside ++ '>' :: ((u ++ ['>']) ++ s) := by simp

/-- Behind its name a tag goes on with a blank or ends. -/
theorem isBlank_head_inside : ∀ c ∈ t.inside.head?, isBlank c = true :=
  isBlank_head_startAttributes t.trailing_blank

/-- So does what is visible of it. -/
theorem isBlank_head_visible : ∀ c ∈ (visible t.inside).head?, isBlank c = true := by
  intro c hc
  rw [visible, List.head?_takeWhile] at hc
  exact t.isBlank_head_inside c (Option.mem_filter_iff.mp hc).1

/-- The tag holds no `<` behind its first character. -/
theorem lt_not_mem_inside : '<' ∉ t.inside := by
  refine List.not_mem_append (fun h => ?_) fun h => absurd (t.trailing_blank '<' h) (by decide)
  obtain ⟨a, -, ha⟩ := List.mem_flatMap.mp h
  exact a.not_mem_chars (Or.inl rfl) a.value_ok.1 ha

/-- Nor does what stands behind its first `>`. -/
theorem lt_not_mem_hidden : '<' ∉ t.hidden := by
  intro h
  rcases List.mem_append.mp (List.mem_of_mem_tail h) with h | h
  · exact t.lt_not_mem_inside ((List.dropWhile_suffix _).subset h)
  · exact absurd h (by decide)

end StartTag

/-! ## Blocks at a start tag -/

/-- Whether a tag ends with a slash is told by what stands behind text without one. -/
theorem endsWithSlash_append {w : List Char} (hw : '/' ∉ w) (v : List Char) :
    endsWithSlash (w ++ v) = endsWithSlash v := by
  unfold endsWithSlash
  rw [List.getLast?_append]
  cases v.getLast? with
  | some c => rfl
  | none =>
    rw [Option.none_or, beq_eq_false_iff_ne.mpr fun h => hw (List.mem_of_getLast? h)]
    rfl

/-- Behind its name an element is read as without attributes, the visible part of these behind what
is read there. -/
theorem element?_startTag (t : StartTag) (ht : Clear t.attributes) (tag : List Char) {w : List Char}
    (hgt : '>' ∉ w) (hslash : '/' ∉ w) (s : List Char) :
    element? tag (w ++ (t.inside ++ '>' :: s)) =
      (element? tag (w ++ '>' :: s)).map fun p =>
        ((p.1.1 ++ visible t.inside, t.hidden ++ p.1.2), p.2) := by
  have hvisible : '>' ∉ visible t.inside := not_mem_takeWhile (by decide) _
  have hword : endsWord (w ++ (visible t.inside ++ '>' :: (t.hidden ++ s))) =
      endsWord (w ++ '>' :: s) := by
    cases w with
    | nil =>
      exact (endsName_append (u := '>' :: (t.hidden ++ s))
        t.isBlank_head_visible rfl rfl).2
    | cons c w => rfl
  have hbody := body?_append_of_silent (s := s)
    (silent_exactClosing_of_not_mem t.lt_not_mem_hidden tag s)
  unfold element?
  rw [t.inside_append, hword]
  by_cases hends : endsWord (w ++ '>' :: s) = true
  · rw [if_pos hends, if_pos hends, tagInside?_append hgt, ← List.append_assoc,
      tagInside?_append (List.not_mem_append hgt hvisible)]
    have hopen : endsWithSlash (w ++ visible t.inside) = false :=
      (endsWithSlash_append hslash _).trans (endsWithSlash_visible ht t.trailing_blank)
    have hopen' : endsWithSlash w = false :=
      beq_eq_false_iff_ne.mpr fun h => hslash (List.mem_of_getLast? h)
    simp only [Option.bind_some, hopen, hopen', Bool.false_eq_true, if_false, hbody,
      Option.map_map]
    rfl
  · rw [if_neg hends, if_neg hends, Option.map_none]

/-- A block is read at a start tag as without attributes. -/
theorem block?_startTag (t : StartTag) (ht : Clear t.attributes) (kind : BlockKind)
    (s : List Char) :
    block? kind (t.chars ++ s) = (block? kind (t.bare ++ s)).map fun p =>
      (⟨p.1.attributes ++ visible t.inside, t.hidden ++ p.1.body, t.chars ++ s⟩, p.2) := by
  have hinside := t.isBlank_head_inside
  have hrest : endsName (t.inside ++ '>' :: s) = true :=
    (endsName_append (u := '>' :: s) hinside rfl rfl).1
  obtain ⟨d, x, hx, hd⟩ : ∃ d x, t.inside ++ '>' :: s = d :: x ∧ isPrefixChar d = false := by
    cases h : t.inside with
    | nil => exact ⟨'>', s, rfl, by decide⟩
    | cons c u =>
      have hc := hinside c (by rw [h]; rfl)
      refine ⟨c, u ++ '>' :: s, rfl, Bool.eq_false_iff.mpr fun hname => ?_⟩
      exact absurd (hc.symm.trans (isBlank_eq_false_of_isPrefixChar hname)) (by decide)
  -- Neither `>` nor a slash is left of the name of the tag behind the name of the kind.
  have hread : ∀ (tag : List Char) {u : List Char}, '>' ∉ u → '/' ∉ u →
      (after? kind.localName.chars (u ++ (t.inside ++ '>' :: s))).bind (element? tag) =
        ((after? kind.localName.chars (u ++ '>' :: s)).bind (element? tag)).map fun p =>
          ((p.1.1 ++ visible t.inside, t.hidden ++ p.1.2), p.2) := by
    intro tag u hgt hslash
    rw [after?_append_cons (LocalName.not_mem_chars (by decide) _) u s, hx,
      after?_append_cons (LocalName.not_mem_chars hd _) u x, ← hx]
    cases hw : after? kind.localName.chars u with
    | none => rfl
    | some w =>
      have hsuffix := suffix_of_after? hw
      exact element?_startTag t ht tag (fun h => hgt (hsuffix.subset h))
        (fun h => hslash (hsuffix.subset h)) s
  have hchars : t.chars ++ s = '<' :: (t.qname.chars ++ (t.inside ++ '>' :: s)) := by
    simp [StartTag.chars]
  have hbare : t.bare ++ s = '<' :: (t.qname.chars ++ '>' :: s) := by simp [StartTag.bare]
  rw [hchars, hbare, block?, block?, kind.tagName_toList, prefixedElement?_qname _ _ hrest,
    prefixedElement?_qname _ _ rfl]
  have hname : ∀ tag, _ := fun tag => @hread tag t.qname.name.chars
    (LocalName.not_mem_chars (by decide) _) (LocalName.not_mem_chars (by decide) _)
  have hwhole := @hread kind.localName.chars t.qname.chars
    (QName.not_mem_chars (by decide) (by decide) _) (QName.not_mem_chars (by decide) (by decide) _)
  simp only [hname, hwhole, Option.map_or, Option.map_bind, Option.map_map, Function.comp_def]

/-- Of a tag without attributes the end of the name may be taken for attributes. -/
theorem attributes_of_bare {t : StartTag} {kind : BlockKind} {s rest : List Char} {b : Block}
    (h : block? kind (t.bare ++ s) = some (b, rest)) :
    (∀ c ∈ b.attributes, isPrefixChar c = true ∨ c = ':') ∧
      endsWord (b.attributes ++ ['>']) = true := by
  have hbare : t.bare ++ s = '<' :: (t.qname.chars ++ '>' :: s) := by simp [StartTag.bare]
  rw [hbare, block?] at h
  obtain ⟨⟨⟨attributes, body⟩, after⟩, hread, heq⟩ := Option.map_eq_some_iff.mp h
  obtain ⟨rfl, -⟩ := Prod.mk.inj heq
  rw [kind.tagName_toList] at hread
  obtain ⟨q, -, u, hu, helement⟩ := exists_of_prefixedElement? hread
  obtain ⟨w, hw, rfl⟩ := append_cons_eq_append
    (q.not_mem_chars (by decide) (by decide)) hu
  have hname : ∀ c ∈ w, isPrefixChar c = true ∨ c = ':' := fun c hc =>
    QName.mem_chars (hw ▸ List.mem_append_right _ hc)
  have hgt : '>' ∉ w := fun hmem => by
    rcases hname _ hmem with h | h <;> exact absurd h (by decide)
  unfold element? at helement
  rw [tagInside?_append hgt, endsWord_append_cons] at helement
  split at helement
  · rename_i hword
    rw [Option.bind_some] at helement
    dsimp only at helement
    split at helement
    · exact absurd helement (by simp)
    · obtain ⟨x, -, hx⟩ := Option.map_eq_some_iff.mp helement
      obtain rfl : w = attributes := congrArg (fun p => p.1.1) hx
      exact ⟨hname, hword⟩
  · exact absurd helement (by simp)

/-- A block is kept with the report from its beginning on. -/
theorem tail_of_block? {kind : BlockKind} {s rest : List Char} {b : Block}
    (h : block? kind s = some (b, rest)) : b.tail = s := by
  unfold block? at h
  split at h
  · obtain ⟨x, -, heq⟩ := Option.map_eq_some_iff.mp h
    exact (congrArg (fun p => p.1.tail) heq).symm
  · exact absurd h (by simp)

/-- Behind the end of a name, taken for attributes, exactly the values that the tag gives are
read. -/
theorem collect_startTag {t : StartTag} (ht : Clear t.attributes) {w : List Char}
    (hname : ∀ c ∈ w, isPrefixChar c = true ∨ c = ':') (hword : endsWord (w ++ ['>']) = true) :
    collect attribute? (' ' :: (w ++ visible t.inside)) =
      t.attributes.filterMap StartAttribute.given? := by
  cases w with
  | nil => exact @collect_visible _ _ ht [' '] (List.all_eq_true.mp (by decide)) t.trailing_blank
  | cons c w =>
    have hinitial : ∀ f : Field, f.initial ≠ c := by
      rintro f rfl
      have hnot : isWord f.initial = false := by simpa [endsWord] using hword
      revert hnot
      cases f <;> decide
    have hplain : ∀ d ∈ c :: w, ∀ u, attribute? (d :: u) = none := by
      intro d hd u
      refine attribute?_of_not_blank ?_ u
      rcases hname d hd with h | rfl
      · exact isBlank_eq_false_of_isPrefixChar h
      · decide
    have hsilent : Silent attribute? (' ' :: (c :: w)) (visible t.inside) := by
      refine ⟨attribute?_eq_none fun d hd => ?_, silent_of_forall_mem hplain _⟩
      obtain rfl : c = d := Option.some.inj hd
      exact hinitial
    have hread := collect_append_of_silent hsilent
    rw [List.cons_append] at hread
    rw [hread]
    exact @collect_visible _ _ ht [] (List.forall_mem_nil _) t.trailing_blank

/-! ## Blocks at start tags with clear attributes -/

/-- What is given for a field in a tag is the value of the attribute with its name. -/
theorem lookup_given (as : List StartAttribute) (f : Field) :
    (as.filterMap StartAttribute.given?).lookup f =
      (as.find? fun a => a.name == f.name.toList).map StartAttribute.value := by
  induction as with
  | nil => rfl
  | cons a as ih =>
    have hname : (a.name == f.name.toList) = true ↔ a.field? = some f := by
      rw [beq_iff_eq, StartAttribute.field?, fieldNamed?_eq_some]
    by_cases hf : a.field? = some f
    · simp only [List.find?_cons, hname.mpr hf]
      rw [List.filterMap_cons_some (by rw [StartAttribute.given?, hf, Option.map_some]),
        List.lookup_cons_self]
      rfl
    · simp only [List.find?_cons, Bool.eq_false_iff.mpr (mt hname.mp hf)]
      rw [← ih]
      cases hg : a.field? with
      | none =>
        rw [List.filterMap_cons_none (by rw [StartAttribute.given?, hg, Option.map_none])]
      | some g =>
        have hne : f ≠ g := by
          rintro rfl
          exact hf hg
        rw [List.filterMap_cons_some (by rw [StartAttribute.given?, hg, Option.map_some]),
          List.lookup_cons, beq_eq_false_iff_ne.mpr hne]

/-- In a tag no two values are given for one field. -/
theorem StartTag.nodup_given (t : StartTag) :
    ((t.attributes.filterMap StartAttribute.given?).map Prod.fst).Nodup := by
  have hkeys : (t.attributes.filterMap StartAttribute.given?).map Prod.fst =
      (t.attributes.map StartAttribute.name).filterMap fieldNamed? := by
    rw [List.map_filterMap, List.filterMap_map]
    refine List.filterMap_congr fun a _ => ?_
    rw [StartAttribute.given?, Option.map_map]
    exact Option.map_id'
  rw [hkeys]
  refine t.nodup.filterMap fun a b f ha hb => ?_
  rw [fieldNamed?_eq_some.mp ha, fieldNamed?_eq_some.mp hb]

/-- A block with clear attributes states a violation when its content holds a message, and then one
with the values that its tag gives. -/
theorem StartTag.violation?_eq_some_iff {t : StartTag} (ht : Clear t.attributes) {w : List Char}
    (hname : ∀ c ∈ w, isPrefixChar c = true ∨ c = ':') (hword : endsWord (w ++ ['>']) = true)
    {body tail : List Char} {v : Violation} :
    violation? ⟨w ++ visible t.inside, t.hidden ++ body, tail⟩ = .ok (some v) ↔
      (∃ raw, firstForm? textElement? body = some raw ∧ messageText raw = .ok v.message) ∧
        t.Gives v := by
  have hgiven := collect_startTag ht hname hword
  have hnodup : ((collect attribute? (' ' :: (w ++ visible t.inside))).map Prod.fst).Nodup := by
    rw [hgiven]
    exact t.nodup_given
  rw [Report.violation?_eq_some_iff hnodup, hgiven, lookup_given, lookup_given, lookup_given,
    firstForm?_append (silent_textElement? t.lt_not_mem_hidden body)]
  exact and_congr_right fun _ =>
    ⟨fun ⟨hne, hid, hflag, hlocation⟩ => ⟨hne, hid, hflag, hlocation⟩,
      fun h => ⟨h.ruleId_ne, h.ruleId, h.flag, h.location⟩⟩

/-- Blocks that differ in other attributes than those of the fields state the same. -/
theorem alike_of_value?_eq {t u : StartTag} (ht : Clear t.attributes) (hu : Clear u.attributes)
    (hvalue : u.value? = t.value?) {w : List Char}
    (hname : ∀ c ∈ w, isPrefixChar c = true ∨ c = ':') (hword : endsWord (w ++ ['>']) = true)
    (body tail tail' : List Char) :
    Alike ⟨w ++ visible t.inside, t.hidden ++ body, tail⟩
      ⟨w ++ visible u.inside, u.hidden ++ body, tail'⟩ := by
  have hgives : ∀ v, t.Gives v ↔ u.Gives v := by
    intro v
    constructor
    · rintro ⟨hne, hid, hflag, hlocation⟩
      exact ⟨hne, hvalue ▸ hid, hvalue ▸ hflag, hvalue ▸ hlocation⟩
    · rintro ⟨hne, hid, hflag, hlocation⟩
      exact ⟨hne, hvalue ▸ hid, hvalue ▸ hflag, hvalue ▸ hlocation⟩
  intro v
  cases v with
  | none =>
    rw [violation?_eq_none_iff, violation?_eq_none_iff,
      firstForm?_append (silent_textElement? t.lt_not_mem_hidden body),
      firstForm?_append (silent_textElement? u.lt_not_mem_hidden body)]
  | some v =>
    rw [StartTag.violation?_eq_some_iff ht hname hword,
      StartTag.violation?_eq_some_iff hu hname hword, hgives v]

/-- The blocks from a start tag on are alike when it has other attributes than those of the
fields. -/
theorem forall₂_collect_startTag {t u : StartTag} (ht : Clear t.attributes)
    (hu : Clear u.attributes) (hbare : u.bare = t.bare) (hvalue : u.value? = t.value?)
    (kind : BlockKind) (s : List Char) :
    List.Forall₂ Alike (collect (block? kind) (t.chars ++ s))
      (collect (block? kind) (u.chars ++ s)) := by
  have hrefl : ∀ bs : List Block, List.Forall₂ Alike bs bs := fun bs =>
    List.forall₂_same.mpr fun _ _ _ => Iff.rfl
  have hread := block?_startTag t ht kind s
  have hread' := block?_startTag u hu kind s
  rw [hbare] at hread'
  cases hblock : block? kind (t.bare ++ s) with
  | some found =>
    obtain ⟨b, rest⟩ := found
    obtain ⟨hname, hword⟩ := attributes_of_bare hblock
    rw [hblock, Option.map_some] at hread hread'
    rw [collect_of_some (reduces_block kind) hread, collect_of_some (reduces_block kind) hread']
    exact List.Forall₂.cons (alike_of_value?_eq ht hu hvalue hname hword _ _ _) (hrefl _)
  | none =>
    -- No block begins at the tag or in it, so that both reports go on with what follows.
    have hskip : ∀ {x : StartTag}, block? kind (x.chars ++ s) = none →
        collect (block? kind) (x.chars ++ s) = collect (block? kind) s := by
      intro x hx
      refine collect_append_of_silent ⟨hx, silent_block?_of_not_mem kind ?_ s⟩
      simp [x.qname.lt_not_mem, x.lt_not_mem_inside]
    rw [hblock, Option.map_none] at hread hread'
    rw [hskip hread, hskip hread']
    exact hrefl _

/-- A block that is read at a start tag states the values that the tag gives, if its attributes are
clear. -/
theorem StartTag.gives_of_block? {t : StartTag} (ht : Clear t.attributes) {kind : BlockKind}
    {s rest : List Char} {b : Block} (hb : block? kind (t.chars ++ s) = some (b, rest))
    {v : Violation} (hv : violation? b = .ok (some v)) : t.Gives v := by
  rw [block?_startTag t ht] at hb
  obtain ⟨⟨c, after⟩, hc, heq⟩ := Option.map_eq_some_iff.mp hb
  obtain ⟨rfl, -⟩ := Prod.mk.inj heq
  obtain ⟨hname, hword⟩ := attributes_of_bare hc
  exact ((StartTag.violation?_eq_some_iff ht hname hword).mp hv).2

/-- Attributes of other names do not matter where no attribute is read wrongly. Every violation that
a report states at a start tag has the unescaped values of the attributes `id`, `flag` and
`location`, or their defaults; and with other attributes, or the same ones in another order, the
report states the same. -/
theorem violation_of_startTag {t : StartTag} (ht : Clear t.attributes) (s : List Char) :
    (∀ (report : String) (kind : BlockKind) (b : Block) (v : Violation),
      (kind, b) ∈ blocks report → b.tail = t.chars ++ s → violation? b = .ok (some v) →
        t.Gives v) ∧
    ∀ u : StartTag, Clear u.attributes → u.kind = t.kind → u.qualifier = t.qualifier →
      u.value? = t.value? → ∀ lead, Settled lead → ∀ limit : Int,
        ((lead ++ (t.chars ++ s)).length : Int) ≤ limit →
        ((lead ++ (u.chars ++ s)).length : Int) ≤ limit → ∀ vs,
          (violations limit (String.ofList (lead ++ (t.chars ++ s))) = .ok vs ↔
            violations limit (String.ofList (lead ++ (u.chars ++ s))) = .ok vs) := by
  have htag : ∀ x : StartTag, AtTag (x.chars ++ s) := fun x c hc => (Option.some.inj hc).symm
  constructor
  · intro report kind b v hb htail hv
    obtain ⟨k, -, hmem⟩ := List.mem_flatMap.mp hb
    obtain ⟨c, hc, heq⟩ := List.mem_map.mp hmem
    obtain ⟨rfl, rfl⟩ := Prod.mk.inj heq
    obtain ⟨x, rest, hread⟩ := exists_of_mem_collect (reduces_block k) hc
    rw [← tail_of_block? hread, htail] at hread
    exact StartTag.gives_of_block? ht hread hv
  · intro u hu hkind hqualifier hvalue lead hlead limit hlimit hlimit' vs
    have hbare : u.bare = t.bare := by
      rw [StartTag.bare, StartTag.bare, StartTag.qname, StartTag.qname, hkind, hqualifier]
    exact violations_congr hlead (htag t) (htag u)
      (fun kind => forall₂_collect_startTag ht hu hbare hvalue kind s) hlimit hlimit' vs

/-- An attribute on a line of its own, with no blanks around its equals sign. -/
def plainAttribute (name : String) (quote : Quote) (value : String)
    (hname : name.toList.all isPrefixChar = true)
    (hvalue : '<' ∉ value.toList ∧ quote.char ∉ value.toList) : StartAttribute where
  name := name.toList
  quote
  value := value.toList
  before := ['\n', '\t']
  left := []
  right := []
  name_ok := fun _ hc => not_mem_of_isPrefixChar (List.all_eq_true.mp hname _ hc)
  value_ok := hvalue
  before_ne_nil := List.cons_ne_nil _ _
  blank := List.all_eq_true.mp (by decide)

/-- A tag with an identifier, a flag and a test with a comparison behind them. -/
def comparisonTag : StartTag where
  kind := .failedAssert
  qualifier := none
  attributes :=
    [plainAttribute "id" .double "R&#49;" (by decide) (by decide),
      plainAttribute "flag" .single "warning" (by decide) (by decide),
      plainAttribute "test" .double "count(id) > 'flag'" (by decide) (by decide)]
  trailing := [' ']
  nodup := by decide
  trailing_blank := List.all_eq_true.mp (by decide)

/-- A tag with a role before the flag and the identifier. -/
def roleTag : StartTag where
  kind := .failedAssert
  qualifier := none
  attributes :=
    [plainAttribute "role" .double "an 'id'" (by decide) (by decide),
      plainAttribute "flag" .double "warning" (by decide) (by decide),
      plainAttribute "id" .single "R&#49;" (by decide) (by decide)]
  trailing := ['\n']
  nodup := by decide
  trailing_blank := List.all_eq_true.mp (by decide)

/-- The comparison stands behind the identifier and the flag, and no assignment begins in it. -/
theorem clear_comparisonTag : Clear comparisonTag.attributes := by
  have hname : ∀ c ∈ "test".toList, isBlank c = false := List.all_iff_forall_prop.mp (by decide)
  refine ⟨fun h => absurd h (by decide), Or.inl ⟨by decide,
    fun _ => not_feigns_of_not_mem (by decide), ?_⟩⟩
  refine ⟨fun h => absurd h (by decide), Or.inl ⟨by decide,
    fun _ => not_feigns_of_not_mem (by decide), ?_⟩⟩
  exact ⟨fun _ => hname, Or.inr ⟨by decide, by decide,
    not_feigns_of_not_mem (by decide), by decide⟩⟩

/-- No value holds a comparison or an equals sign. -/
theorem clear_roleTag : Clear roleTag.attributes := by
  have hname : ∀ c ∈ "role".toList, isBlank c = false := List.all_iff_forall_prop.mp (by decide)
  refine ⟨fun _ => hname, Or.inl ⟨by decide, fun _ => not_feigns_of_not_mem (by decide), ?_⟩⟩
  refine ⟨fun h => absurd h (by decide), Or.inl ⟨by decide,
    fun _ => not_feigns_of_not_mem (by decide), ?_⟩⟩
  exact ⟨fun h => absurd h (by decide), Or.inl ⟨by decide,
    fun _ => not_feigns_of_not_mem (by decide), trivial⟩⟩

/-- The two tags give the same values. -/
theorem value?_roleTag : roleTag.value? = comparisonTag.value? := by
  funext f
  cases f <;> decide

/-- A block with a message is settled. -/
theorem settled_sampleFinding :
    Settled ([] ++ layout ReportBlock.shape [(sampleFinding .failedAssert "R2", ['\n'])]) := by
  refine settled_layout (fun kind => by cases kind <;> decide) fun i hi kind _ => ?_
  obtain rfl := List.mem_singleton.mp hi
  refine (ReportBlock.passesFor_shape _ kind).trans ?_
  cases kind <;> decide

/-- Behind another block both tags state the same, with the values that they give. -/
theorem violation_of_startTag_sample :
    Clear comparisonTag.attributes ∧ comparisonTag.Gives ⟨some "R1", "warning", "", "m"⟩ ∧
      violations 1000 (String.ofList
        ([] ++ layout ReportBlock.shape [(sampleFinding .failedAssert "R2", ['\n'])] ++
          (roleTag.chars ++ "<text>m</text></failed-assert>".toList))) =
        .ok [⟨some "R2", "info", "", "1 < 2 & more"⟩, ⟨some "R1", "warning", "", "m"⟩] := by
  obtain ⟨hgives, hother⟩ := violation_of_startTag clear_comparisonTag
    "<text>m</text></failed-assert>".toList
  refine ⟨clear_comparisonTag, ?_, ?_⟩
  · refine hgives (String.ofList (comparisonTag.chars ++ "<text>m</text></failed-assert>".toList))
      .failedAssert ⟨visible comparisonTag.inside, comparisonTag.hidden ++ "<text>m</text>".toList,
        comparisonTag.chars ++ "<text>m</text></failed-assert>".toList⟩ _ ?_ rfl ?_
    · decide +kernel
    · decide +kernel
  · refine (hother roleTag clear_roleTag rfl rfl value?_roleTag _ settled_sampleFinding 1000
      ?_ ?_ _).mp ?_
    · decide +kernel
    · decide +kernel
    · decide +kernel

end StylesheetTrace.Report
