import StylesheetTrace.Proofs.Report.Refusal
import StylesheetTrace.Proofs.Report.Truncation

/-!
# What a block states, from what is given

The violation that a block states is that of its message and of the values that are given for the
fields, each at most once (`violation?_eq_some_iff`). Blocks that are alike in this state the same.
Where a report has text in front that is settled, which means that its blocks are read by themselves
whatever tag follows, alike blocks behind it make the reports alike (`violations_congr`).
-/

namespace StylesheetTrace.Report

open StylesheetTrace.Text StylesheetTrace.Entity StylesheetTrace.Markup

/-! ## The values of fields -/

/-- The value of a field is the text of what is given for it, or the default where nothing is. -/
def HasValue (given? : Option (List Char)) (default value : String) : Prop :=
  match given? with
  | none => value = default
  | some raw => unescape raw = .ok value.toList

section

variable {attributes : List Char} {values : List (Field × String)}

/-- The values that are read are those of what is given, one by one. -/
theorem forall₂_fieldValues (h : fieldValues attributes = .ok values) :
    List.Forall₂ (fun g v => v.1 = g.1 ∧ unescape g.2 = .ok v.2.toList)
      (collect attribute? (' ' :: attributes)) values := by
  refine (forall₂_mapM_eq_ok h).imp fun g v hv => ?_
  obtain ⟨value, hvalue, rfl⟩ := map_eq_ok.mp hv
  exact ⟨rfl, by rw [hvalue, String.toList_ofList]⟩

/-- The value of a field that is read is that of what is given for it. -/
theorem hasValue_lookup (h : fieldValues attributes = .ok values) (f : Field)
    (default value : String) :
    HasValue ((collect attribute? (' ' :: attributes)).lookup f) default value ↔
      (values.lookup f).getD default = value := by
  have hpair := forall₂_fieldValues h
  generalize collect attribute? (' ' :: attributes) = given at hpair
  clear h
  induction hpair with
  | nil => exact eq_comm
  | @cons g v given values hv hrest ih =>
    obtain ⟨g, raw⟩ := g
    obtain ⟨k, x⟩ := v
    obtain ⟨rfl, hx⟩ := hv
    rw [List.lookup_cons, List.lookup_cons]
    by_cases hf : f = k
    · have hraw : unescape raw = .ok x.toList := hx
      rw [beq_iff_eq.mpr hf]
      change unescape raw = .ok value.toList ↔ x = value
      rw [hraw, Except.ok.injEq, String.toList_inj]
    · rw [beq_eq_false_iff_ne.mpr hf]
      exact ih

/-- No two values are read for one field, if no two are given. -/
theorem nodup_fieldValues (h : fieldValues attributes = .ok values)
    (hgiven : ((collect attribute? (' ' :: attributes)).map Prod.fst).Nodup) :
    (values.map Prod.fst).Nodup := by
  have hkeys : values.map Prod.fst = (collect attribute? (' ' :: attributes)).map Prod.fst := by
    have hpair := forall₂_fieldValues h
    generalize collect attribute? (' ' :: attributes) = given at hpair
    clear h hgiven
    induction hpair with
    | nil => rfl
    | cons hv _ ih => rw [List.map_cons, List.map_cons, hv.1, ih]
  rw [hkeys]
  exact hgiven

/-- Values are read when each field has one. -/
theorem exists_fieldValues
    (hgiven : ((collect attribute? (' ' :: attributes)).map Prod.fst).Nodup)
    (hvalue : ∀ f, ∃ default value,
      HasValue ((collect attribute? (' ' :: attributes)).lookup f) default value) :
    ∃ values, fieldValues attributes = .ok values := by
  change HasResult (fieldValues attributes)
  rw [fieldValues, hasResult_mapM]
  rintro ⟨f, raw⟩ hmem
  rw [hasResult_map]
  obtain ⟨default, value, h⟩ := hvalue f
  rw [(lookup_eq_some_iff hgiven).mpr hmem] at h
  exact ⟨_, h⟩

end

/-! ## Violations -/

/-- An identifier that counts only if it is not empty. -/
theorem filter_isEmpty_eq_iff {given id : Option String} :
    given.filter (fun value => !value.isEmpty) = id ↔
      id ≠ some "" ∧ given.getD "" = id.getD "" := by
  have hnone : ∀ {r : Option String}, none = r ↔ r ≠ some "" ∧ "" = r.getD "" := by
    intro r
    cases r with
    | none => simp
    | some r => exact iff_of_false (by simp) fun h => h.1 (congrArg some h.2.symm)
  cases given with
  | none => exact hnone
  | some s =>
    by_cases hs : s = ""
    · subst hs
      exact hnone
    · rw [Option.filter_some, if_pos (by simpa using hs)]
      cases id with
      | none => simp [hs]
      | some r =>
        have hne : s = r → r ≠ "" := fun h => h ▸ hs
        simpa using hne

/-- A block states a violation when its content holds a message and the values that are given for
the fields are read; that of the identifier counts only if it is not empty. -/
theorem violation?_eq_some_iff {b : Block}
    (hgiven : ((collect attribute? (' ' :: b.attributes)).map Prod.fst).Nodup) {v : Violation} :
    violation? b = .ok (some v) ↔
      (∃ body, firstForm? textElement? b.body = some body ∧ messageText body = .ok v.message) ∧
        v.ruleId ≠ some "" ∧
        HasValue ((collect attribute? (' ' :: b.attributes)).lookup .id) "" (v.ruleId.getD "") ∧
        HasValue ((collect attribute? (' ' :: b.attributes)).lookup .flag) "error" v.flag ∧
        HasValue ((collect attribute? (' ' :: b.attributes)).lookup .location) "" v.location := by
  unfold violation?
  cases hbody : firstForm? textElement? b.body with
  | none => simp
  | some body =>
    constructor
    · intro h
      obtain ⟨values, hvalues, h⟩ := bind_eq_ok.mp h
      obtain ⟨message, hmessage, h⟩ := bind_eq_ok.mp h
      obtain rfl := Option.some.inj (Except.ok.inj h)
      have hlast := lastValue?_eq_lookup (nodup_fieldValues hvalues hgiven)
      obtain ⟨hne, hid⟩ := (@filter_isEmpty_eq_iff (values.lookup .id) _).mp rfl
      dsimp only
      rw [hlast, hlast, hlast]
      exact ⟨⟨body, rfl, hmessage⟩, hne, (hasValue_lookup hvalues _ _ _).mpr hid,
        (hasValue_lookup hvalues _ _ _).mpr rfl, (hasValue_lookup hvalues _ _ _).mpr rfl⟩
    · rintro ⟨⟨_, hsome, hmessage⟩, hne, hid, hflag, hlocation⟩
      obtain rfl := Option.some.inj hsome
      obtain ⟨values, hvalues⟩ := exists_fieldValues hgiven fun f => by
        cases f with
        | id => exact ⟨_, _, hid⟩
        | flag => exact ⟨_, _, hflag⟩
        | location => exact ⟨_, _, hlocation⟩
      have hlast := lastValue?_eq_lookup (nodup_fieldValues hvalues hgiven)
      have hid := filter_isEmpty_eq_iff.mpr ⟨hne, (hasValue_lookup hvalues _ _ _).mp hid⟩
      have hflag := (hasValue_lookup hvalues _ _ _).mp hflag
      have hlocation := (hasValue_lookup hvalues _ _ _).mp hlocation
      simp only [hvalues, hmessage, bind, Except.bind, hlast, hid, hflag, hlocation]
      rfl

/-- A block states no violation when its content holds no message. -/
theorem violation?_eq_none_iff {b : Block} :
    violation? b = .ok none ↔ firstForm? textElement? b.body = none := by
  unfold violation?
  cases hbody : firstForm? textElement? b.body with
  | none => simp
  | some body =>
    refine iff_of_false (fun h => ?_) (by simp)
    obtain ⟨values, -, h⟩ := bind_eq_ok.mp h
    obtain ⟨message, -, h⟩ := bind_eq_ok.mp h
    exact absurd (Except.ok.inj h) (by simp)

/-! ## Reports that are alike -/

/-- Two blocks state the same. -/
def Alike (b c : Block) : Prop := ∀ v, violation? b = .ok v ↔ violation? c = .ok v

/-- The blocks of the text are read by themselves: with alike blocks behind it the blocks are alike,
where the text ends or goes on with a tag. -/
def Settled (lead : List Char) : Prop :=
  ∀ (kind : BlockKind) {s t : List Char}, AtTag s → AtTag t →
    List.Forall₂ Alike (collect (block? kind) s) (collect (block? kind) t) →
    List.Forall₂ Alike (collect (block? kind) (lead ++ s)) (collect (block? kind) (lead ++ t))

/-- Text in which no block is mentioned is settled. -/
theorem settled_of_unnamed {lead : List Char}
    (h : ∀ kind : BlockKind, ¬ kind.localName.chars <:+: lead) : Settled lead := by
  intro kind s t hs ht halike
  rw [collect_append_of_silent (silent_block?_of_unnamed hs (h kind)),
    collect_append_of_silent (silent_block?_of_unnamed ht (h kind))]
  exact halike

/-- A block is settled with the text behind it, if its prefixes are not taken for the name of the
other kind. -/
theorem BlockShape.settled_append {b : BlockShape}
    (hpass : ∀ kind, kind ≠ b.kind → b.passesFor kind = false) {gap : List Char}
    (hgap : Settled gap) : Settled (b.chars ++ gap) := by
  intro kind s t hs ht halike
  have hrest := hgap kind hs ht halike
  rw [List.append_assoc, List.append_assoc]
  by_cases hfound : kind = b.kind ∧ b.content.isClosed = false
  · obtain ⟨rfl, hended⟩ := hfound
    rw [collect_of_some (reduces_block _) (b.block?_chars hended _),
      collect_of_some (reduces_block _) (b.block?_chars hended _)]
    exact List.Forall₂.cons (fun _ => Iff.rfl) hrest
  · have hsilent : ∀ u, Silent (block? kind) b.chars u := by
      intro u
      cases hclosed : b.content.isClosed with
      | true => exact b.silent_of_closed hclosed u
      | false =>
        have hne : kind ≠ b.kind := fun h => hfound ⟨h, hclosed⟩
        exact b.silent_of_ne hne fun h => absurd (h.symm.trans (hpass kind hne)) (by decide)
    rw [collect_append_of_silent (hsilent _), collect_append_of_silent (hsilent _)]
    exact hrest

/-- Settled text is settled with more of that kind behind it. -/
theorem Settled.append {lead t : List Char} (hlead : Settled lead) (ht : Settled t)
    (htag : AtTag t) : Settled (lead ++ t) := by
  have hbehind : ∀ {s : List Char}, AtTag s → AtTag (t ++ s) := by
    intro s hs
    cases t with
    | nil => exact hs
    | cons c t => exact htag
  intro kind s u hs hu halike
  rw [List.append_assoc, List.append_assoc]
  exact hlead kind (hbehind hs) (hbehind hu) (ht kind hs hu halike)

/-- The beginning of a report is settled, if no prefix in it is taken for the name of a kind. -/
theorem settled_layout {ι : Type} {shape : ι → BlockShape} {lead : List Char}
    {items : List (ι × List Char)}
    (hplain : ∀ kind : BlockKind, ∀ t ∈ lead :: items.map Prod.snd,
      ¬ kind.localName.chars <:+: t)
    (hpass : ∀ i ∈ items, ∀ kind, kind ≠ (shape i.1).kind → (shape i.1).passesFor kind = false) :
    Settled (lead ++ layout shape items) := by
  induction items generalizing lead with
  | nil =>
    rw [layout, List.flatMap_nil, List.append_nil]
    exact settled_of_unnamed fun kind => hplain kind lead List.mem_cons_self
  | cons i items ih =>
    obtain ⟨b, gap⟩ := i
    have hrest : Settled (gap ++ layout shape items) :=
      ih (fun kind t ht => hplain kind t (List.mem_cons_of_mem lead ht))
        fun i hi => hpass i (List.mem_cons_of_mem _ hi)
    have hunnamed := settled_of_unnamed fun kind => hplain kind lead List.mem_cons_self
    rw [layout_cons]
    exact hunnamed.append ((shape b).settled_append (hpass _ List.mem_cons_self) hrest)
      fun c hc => (Option.some.inj hc).symm

/-- A report with settled text in front states the same with alike blocks behind that. -/
theorem violations_congr {lead s t : List Char} (hlead : Settled lead) (hs : AtTag s)
    (ht : AtTag t)
    (halike : ∀ kind, List.Forall₂ Alike (collect (block? kind) s) (collect (block? kind) t))
    {limit : Int} (hslimit : ((lead ++ s).length : Int) ≤ limit)
    (htlimit : ((lead ++ t).length : Int) ≤ limit) (vs : List Violation) :
    violations limit (String.ofList (lead ++ s)) = .ok vs ↔
      violations limit (String.ofList (lead ++ t)) = .ok vs := by
  have hblocks : List.Forall₂ (fun b c : BlockKind × Block => Alike b.2 c.2)
      (blocks (String.ofList (lead ++ s))) (blocks (String.ofList (lead ++ t))) := by
    rw [blocks, blocks, String.toList_ofList, String.toList_ofList]
    refine List.rel_flatMap (R := Eq) (List.forall₂_refl _) ?_
    rintro kind _ rfl
    rw [List.forall₂_map_left_iff, List.forall₂_map_right_iff]
    exact hlead kind hs ht (halike kind)
  have hread : ∀ r : List Char, ((r.length : Int) ≤ limit) →
      (violations limit (String.ofList r) = .ok vs ↔
        ∃ found, (blocks (String.ofList r)).mapM (fun b => violation? b.2) = .ok found ∧
          found.filterMap id = vs) := by
    intro r hr
    rw [violations, if_neg (by rw [String.length_ofList]; omega), mapError_eq_ok, map_eq_ok]
  rw [hread _ hslimit, hread _ htlimit]
  exact exists_congr fun found => and_congr_left fun _ => mapM_eq_ok_congr hblocks

end StylesheetTrace.Report
