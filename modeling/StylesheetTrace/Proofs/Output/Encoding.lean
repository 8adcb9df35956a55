import StylesheetTrace.Marker
import StylesheetTrace.Proofs.Output.Provenance
import StylesheetTrace.Stylesheet.Instrument

/-!
# Markers as they are written

A marker is written unless its file or its element holds a delimiter or its line has too many digits.
It is read back with its fields when its file holds no line feed and no end of a comment
(`readsBack_of_encode`); neither of these is looked at when it is written. The end of a comment in
the file ends the comment that is taken out, so that the rest of the marker stays on its line, unless
a second marker begins there.
-/

namespace StylesheetTrace.Output

open StylesheetTrace.Text

/-- A character of the qualified name of an element. -/
def isElementChar (c : Char) : Bool :=
  Stylesheet.isLiteralChar c || c == ':'

/-- A raw output with the text of a marker as a comment on one line and a line of content behind. -/
def markedOutput (text content : String) : String :=
  "<!--" ++ text ++ "-->\n" ++ content

/-- The raw output is split into the content and one entry with the fields of the marker. -/
def ReadsBack (sentinel file : String) (n : Nat) (element text content : String) : Prop :=
  split sentinel (markedOutput text content) = .ok ⟨[content], [⟨1, file, n, element⟩]⟩

/-- The line of a marker as it is written. -/
def writtenLine (sentinel file : String) (n : Nat) (element : String) : List Char :=
  markerStart sentinel.toList ++
    (file.toList ++ '|' :: (decimal n ++ '|' :: (element.toList ++ commentEnd)))

/-- Only blanks are left of the line of a marker without its comments. -/
def Vanishes (sentinel file : String) (n : Nat) (element : String) : Prop :=
  ∀ c ∈ cleaned sentinel.toList false (writtenLine sentinel file n element), isBlank c = true

section

variable {sentinel file element text content : String} {n : Nat}

/-- The text of a marker is written when no field holds a delimiter, and then is the sentinel and
the fields with delimiters between them. -/
theorem text_eq_ok : Marker.text sentinel file n element = .ok text ↔
    '|' ∉ file.toList ∧ '|' ∉ element.toList ∧ text.toList =
      sentinel.toList ++ '|' :: (file.toList ++ '|' :: (decimal n ++ '|' :: element.toList)) := by
  have hcheck : ∀ {field value}, Marker.check field value = .ok () ↔ '|' ∉ value.toList := by
    intro field value
    unfold Marker.check Marker.delimiter
    split <;> simp_all
  have htext : ("|".intercalate [sentinel, file, toString (n : Int), element]).toList =
      sentinel.toList ++ '|' :: (file.toList ++ '|' :: (decimal n ++ '|' :: element.toList)) := by
    have hline : (toString (n : Int)).toList = decimal n := rfl
    rw [String.toList_intercalate, List.map_cons, List.map_cons, List.map_cons, hline]
    simp
  unfold Marker.text
  simp only [bind_eq_ok]
  constructor
  · rintro ⟨⟨⟩, hfile, ⟨⟩, helement, h⟩
    obtain rfl := Except.ok.inj h
    exact ⟨hcheck.mp hfile, hcheck.mp helement, htext⟩
  · rintro ⟨hfile, helement, h⟩
    refine ⟨(), hcheck.mpr hfile, (), hcheck.mpr helement, congrArg Except.ok ?_⟩
    exact String.toList_injective (htext.trans h.symm)

/-- A marker is written when its text is and its line has no more digits than are read. -/
theorem encode_eq_ok : Marker.encode sentinel file n element = .ok text ↔
    Marker.text sentinel file n element = .ok text ∧ n < 10 ^ TooLong.limit := by
  have hline : TooLong.limit < (toString (n : Int).natAbs).length ↔ ¬ n < 10 ^ TooLong.limit := by
    rw [← length_decimal_le_iff, Nat.not_le]
    rfl
  unfold Marker.encode
  rw [bind_eq_ok]
  simp only [hline]
  by_cases hlt : n < 10 ^ TooLong.limit
  · simp [hlt]
  · simp [hlt]

variable (hname : ∀ c ∈ element.toList, isElementChar c = true)

include hname in
/-- The characters that tell markers apart do not stand in the name of an element. -/
theorem not_mem_element {d : Char} (hd : isElementChar d = false) : d ∉ element.toList := by
  intro h
  exact absurd (hd.symm.trans (hname d h)) (by decide)

variable (hsentinel : '\n' ∉ sentinel.toList) (hfeed : '\n' ∉ content.toList)
  (hencode : Marker.encode sentinel file n element = .ok text)

include hname hsentinel hfeed hencode in
/-- The raw output has two lines when the file holds no line feed. -/
theorem lines_markedOutput (hfile : '\n' ∉ file.toList) :
    lines (markedOutput text content).toList =
      [writtenLine sentinel file n element, content.toList] := by
  obtain ⟨-, -, htext⟩ := text_eq_ok.mp (encode_eq_ok.mp hencode).1
  have hchars : (markedOutput text content).toList =
      writtenLine sentinel file n element ++ '\n' :: content.toList := by
    simp [markedOutput, writtenLine, htext, markerStart, commentEnd]
  have hdecimal : '\n' ∉ decimal n := fun h => absurd (isDigit_of_mem_decimal h) (by decide)
  have hline : '\n' ∉ writtenLine sentinel file n element := by
    simp [writtenLine, markerStart, commentEnd, hsentinel, hfile, hdecimal,
      not_mem_element hname (d := '\n') (by decide)]
  have hreturn : (writtenLine sentinel file n element).getLast? ≠ some '\r' := by
    have hend : writtenLine sentinel file n element = (markerStart sentinel.toList ++
        (file.toList ++ '|' :: (decimal n ++ '|' :: (element.toList ++ ['-', '-'])))) ++ ['>'] := by
      simp [writtenLine, commentEnd]
    rw [hend, List.getLast?_concat]
    decide
  rw [hchars, lines_append_feed hline, dropReturn_of_getLast? hreturn, lines_of_not_mem hfeed]

/-- Two lines yield two parts, and only the second line is the last. -/
theorem partsOf_pair {sentinel l m : List Char} {parts : List Part} :
    partsOf sentinel [l, m] = .ok parts ↔ ∃ p q, partOf sentinel false l = .ok p ∧
      partOf sentinel true m = .ok q ∧ parts = [p, q] := by
  have hfirst : ∀ {ps}, [l].mapM (partOf sentinel false) = .ok ps ↔
      ∃ p, partOf sentinel false l = .ok p ∧ ps = [p] := by
    intro ps
    rw [List.mapM_cons, List.mapM_nil]
    cases partOf sentinel false l <;> simp [bind, Except.bind, pure, Except.pure, eq_comm]
  rw [← List.singleton_append, partsOf_concat]
  simp only [hfirst]
  constructor
  · rintro ⟨_, q, ⟨p, hp, rfl⟩, hq, rfl⟩
    exact ⟨p, q, hp, hq, rfl⟩
  · rintro ⟨p, q, hp, hq, rfl⟩
    exact ⟨_, q, ⟨p, hp, rfl⟩, hq, rfl⟩

include hname hencode in
/-- The line of a marker yields the place that it names, and no line when it vanishes. -/
theorem partOf_writtenLine (hn : 1 ≤ n)
    (hblank : Vanishes sentinel file n element) :
    partOf sentinel.toList false (writtenLine sentinel file n element) =
      .ok ⟨[⟨file, n, element⟩], none⟩ := by
  obtain ⟨htext, hlt⟩ := encode_eq_ok.mp hencode
  obtain ⟨hbar, -, -⟩ := text_eq_ok.mp htext
  have helement : ¬ commentEnd <:+: element.toList := fun h =>
    not_mem_element hname (d := '>') (by decide) (h.subset (by decide))
  have hmarker : marker? sentinel.toList (writtenLine sentinel file n element) =
      some ((file.toList, decimal n, element.toList), []) := by
    have hrow := @marker?_row sentinel.toList _ _ _ hbar
      (fun c hc => isDigit_of_isDigit (isDigit_of_mem_decimal hc)) (decimal_ne_nil n) helement []
    rwa [List.append_nil] at hrow
  have hcollect : collect (marker? sentinel.toList) (writtenLine sentinel file n element) =
      [(file.toList, decimal n, element.toList)] := by
    rw [collect_of_some reduces_marker hmarker]
    rfl
  have horigin : originOf? (file.toList, decimal n, element.toList) =
      .ok (some ⟨file, n, element⟩) := by
    rw [originOf?, readDigits_decimal hlt]
    simp [Except.map, Nat.ne_of_gt hn]
  have hne : (cleaned sentinel.toList false (writtenLine sentinel file n element) !=
      writtenLine sentinel file n element) = true := by
    rw [bne_iff_ne]
    intro heq
    have hmem : '<' ∈ writtenLine sentinel file n element := by simp [writtenLine, markerStart]
    exact absurd (hblank '<' (by rwa [heq])) (by decide)
  unfold partOf
  rw [hcollect]
  simp only [List.mapM_cons, List.mapM_nil, horigin, hne, List.all_eq_true.mpr hblank]
  rfl

include hname in
/-- The line of a marker vanishes when its file does not hold the end of a comment. -/
theorem vanishes_of_open (hopen : ¬ commentEnd <:+: file.toList) :
    Vanishes sentinel file n element := by
  have hend : commentEnd = ['-', '-'] ++ ['>'] := rfl
  have helement : ¬ commentEnd <:+: element.toList := fun h =>
    not_mem_element hname (d := '>') (by decide) (h.subset (by decide))
  have hfields := not_infix_fields hopen
    (fun c hc => isDigit_of_isDigit (isDigit_of_mem_decimal (n := n) hc)) helement
  have hcomment : markerComment? sentinel.toList (writtenLine sentinel file n element) =
      some ((), []) := by
    refine markerComment?_eq_some.mpr ⟨_, rfl, ?_⟩
    rw [hend] at hfields ⊢
    rw [← afterFirst?_append (by decide) hfields []]
    simp
  intro c hc
  rw [cleaned, if_neg Bool.false_ne_true, erase_of_some reduces_markerComment hcomment] at hc
  exact absurd hc List.not_mem_nil

include hname in
/-- Of a marker whose file holds the end of a comment the rest stays on the line, unless a second
marker could begin in the file. -/
theorem open_of_vanishes (hblank : Vanishes sentinel file n element) (hlt : '<' ∉ file.toList) :
    ¬ commentEnd <:+: file.toList := by
  intro hinfix
  -- The comment is taken out up to its end in the file.
  obtain ⟨x, hx, hsuffix⟩ := afterFirst?_append_of_infix hinfix
    ('|' :: (decimal n ++ '|' :: (element.toList ++ commentEnd)))
  have hcomment : markerComment? sentinel.toList (writtenLine sentinel file n element) =
      some ((), x ++ '|' :: (decimal n ++ '|' :: (element.toList ++ commentEnd))) :=
    markerComment?_eq_some.mpr ⟨_, rfl, hx⟩
  have hrest : '<' ∉ x ++ '|' :: (decimal n ++ '|' :: (element.toList ++ commentEnd)) := by
    have hx : '<' ∉ x := fun hmem => hlt (hsuffix.subset hmem)
    have hdecimal : '<' ∉ decimal n := fun hmem => absurd (isDigit_of_mem_decimal hmem) (by decide)
    simp [hx, hdecimal, commentEnd, not_mem_element hname (d := '<') (by decide)]
  have hcleaned : cleaned sentinel.toList false (writtenLine sentinel file n element) =
      x ++ '|' :: (decimal n ++ '|' :: (element.toList ++ commentEnd)) := by
    rw [cleaned, if_neg Bool.false_ne_true, erase_of_some reduces_markerComment hcomment]
    refine erase_of_silent (silent_of_not_marked fun hmarked => hrest ?_).2.1
    exact hmarked.subset (by simp [markerStart])
  have hbar := hblank '|' (hcleaned ▸ List.mem_append_right x List.mem_cons_self)
  exact absurd hbar (by decide)

/-- The file of an entry is read from one line of the raw output. -/
theorem feed_not_mem_of_readsBack (h : ReadsBack sentinel file n element text content) :
    '\n' ∉ file.toList := by
  obtain ⟨line, hline, m, hm, horigin⟩ := exists_of_mem_entries h List.mem_cons_self
  obtain ⟨q, hq, rfl⟩ := List.mem_map.mp hm
  obtain ⟨htail, hread⟩ := read_of_mem advances_marker hq
  obtain ⟨n', hn', hsome⟩ := map_eq_ok.mp horigin
  split at hsome
  · exact absurd hsome (by simp)
  · obtain ⟨hfile, -⟩ := Origin.mk.inj (Option.some.inj hsome)
    dsimp only at hfile
    rw [← hfile, String.toList_ofList]
    intro hmem
    refine (infix_of_mem_lines hline).2 (htail.subset ?_)
    rw [(marker?_eq_some.mp hread).1]
    exact List.mem_append_right _ (List.mem_append_left _ hmem)

variable (hplain : ¬ markerStart sentinel.toList <:+: content.toList)

include hname hsentinel hfeed hencode hplain in
/-- A marker is read back exactly when its file holds no line feed and its own line vanishes. -/
theorem readsBack_iff (hn : 1 ≤ n) : ReadsBack sentinel file n element text content ↔
    '\n' ∉ file.toList ∧ Vanishes sentinel file n element := by
  have hcontent := partOf_content hplain true
  constructor
  · intro h
    have hfile := feed_not_mem_of_readsBack h
    refine ⟨hfile, fun c hc => ?_⟩
    obtain ⟨parts, hparts, hkept, -⟩ := exists_of_split h
    rw [lines_markedOutput hname hsentinel hfeed hencode hfile] at hparts
    obtain ⟨p, q, hp, hq, rfl⟩ := partsOf_pair.mp hparts
    obtain rfl := Except.ok.inj (hcontent.symm.trans hq)
    -- If anything but blanks were left of the line, two lines would be kept.
    by_contra hblank
    have hfirst := kept_eq_some_of_partOf hp (Or.inr ⟨c, hc, Bool.eq_false_iff.mpr hblank⟩)
    rw [List.filterMap_cons_some hfirst] at hkept
    exact absurd (List.cons.inj hkept).2 (by simp [RawLine.part])
  · rintro ⟨hfile, hblank⟩
    have hparts : partsOf sentinel.toList [writtenLine sentinel file n element, content.toList] =
        .ok [⟨[⟨file, n, element⟩], none⟩, (RawLine.content content.toList).part] :=
      partsOf_pair.mpr ⟨_, _, partOf_writtenLine hname hencode hn hblank, hcontent, rfl⟩
    unfold ReadsBack split
    rw [lines_markedOutput hname hsentinel hfeed hencode hfile, hparts]
    simp [Except.map, numbered, RawLine.part]

include hname hsentinel hfeed hencode hplain in
/-- A marker that is written is read back exactly when its file holds no line feed and no end of a
comment; or the file holds the end of a comment, and goes on with further markers up to its end. -/
theorem readsBack_of_encode (hn : 1 ≤ n) : ReadsBack sentinel file n element text content ↔
    '\n' ∉ file.toList ∧
      (¬ commentEnd <:+: file.toList ∨ '<' ∈ file.toList ∧ Vanishes sentinel file n element) := by
  rw [readsBack_iff hname hsentinel hfeed hencode hplain hn]
  refine and_congr_right fun _ => ⟨fun h => ?_, ?_⟩
  · by_cases hlt : '<' ∈ file.toList
    · exact Or.inr ⟨hlt, h⟩
    · exact Or.inl (open_of_vanishes hname h hlt)
  · rintro (hopen | ⟨-, h⟩)
    · exact vanishes_of_open hname hopen
    · exact h

/-- The marker of an element in a stylesheet is read back, and its text is the content. -/
theorem readsBack_of_encode_prefixed :
    Marker.encode "XSLT-TRACE" "maps/a b.xsl" 12 "cac:Party" =
        .ok "XSLT-TRACE|maps/a b.xsl|12|cac:Party" ∧
      ReadsBack "XSLT-TRACE" "maps/a b.xsl" 12 "cac:Party" "XSLT-TRACE|maps/a b.xsl|12|cac:Party"
        "  <cac:Party/>\r" := by
  have hencode : Marker.encode "XSLT-TRACE" "maps/a b.xsl" (12 : Nat) "cac:Party" =
      .ok "XSLT-TRACE|maps/a b.xsl|12|cac:Party" := by
    decide +kernel
  have hname : ∀ c ∈ "cac:Party".toList, isElementChar c = true :=
    List.all_eq_true.mp (by decide +kernel)
  refine ⟨hencode, (readsBack_of_encode hname (by decide +kernel) (by decide +kernel) hencode
    (by decide +kernel) (by decide)).mpr ⟨by decide +kernel, Or.inl (by decide +kernel)⟩⟩

-- The end of a comment in the file is not looked at when the marker is written.
example : Marker.encode "T" "a-->b.xsl" 3 "a" = .ok "T|a-->b.xsl|3|a" ∧
    split "T" (markedOutput "T|a-->b.xsl|3|a" "<a/>") =
      .ok ⟨["b.xsl|3|a-->", "<a/>"], [⟨1, "a-->b.xsl", 3, "a"⟩]⟩ := by
  decide +kernel

end

end StylesheetTrace.Output
