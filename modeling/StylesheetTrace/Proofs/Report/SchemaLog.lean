import Mathlib.Data.Bool.AllAny
import StylesheetTrace.Report.SchemaLog
import StylesheetTrace.Proofs.Finding.Name
import StylesheetTrace.Proofs.Text.Blank
import StylesheetTrace.Proofs.Text.Lines
import StylesheetTrace.Proofs.Text.Number

/-!
# Reading the log of a schema validator

A schema validator writes a finding about an element as the path and the line of the document, the
name of the element, the phrase that announces a finding, and a message that names the element
again. The reader recovers the line and the message, whatever the message goes on with
(`logIssues_chars`).
-/

namespace StylesheetTrace.Report

open StylesheetTrace.Text StylesheetTrace.Markup StylesheetTrace.Finding

/-! ## The announcing phrase -/

/-- A word with a space in it does not stand where a colon comes before the next space. -/
theorem after?_eq_none_of_colon {v w u : List Char} (hv : ∀ c ∈ v, c ≠ ':' ∧ c ≠ ' ')
    (hu : ∀ c ∈ u, c ≠ ' ') (s : List Char) : after? (v ++ ' ' :: w) (u ++ ':' :: s) = none := by
  rw [Option.eq_none_iff_forall_not_mem]
  intro rest hrest
  -- Up to the first space the text holds a colon, and the word holds none.
  have heq := congrArg (List.takeWhile (· != ' ')) (after?_eq_some.mp hrest)
  have hv' : ∀ c ∈ v, (c != ' ') = true := fun c hc => bne_iff_ne.mpr (hv c hc).2
  have hu' : ∀ c ∈ u, (c != ' ') = true := fun c hc => bne_iff_ne.mpr (hu c hc)
  rw [List.takeWhile_append_of_pos hu', List.append_assoc, List.takeWhile_append_of_pos hv',
    List.cons_append, List.takeWhile_cons_of_pos (by decide),
    List.takeWhile_cons_of_neg (by decide), List.append_nil] at heq
  have hcolon : ':' ∈ v := by
    rw [← heq]
    exact List.mem_append_right u List.mem_cons_self
  exact (hv _ hcolon).1 rfl

/-- A phrase begins with one of two letters. -/
theorem afterPhrase?_cons_of_ne {c : Char} (h : c ≠ 'S' ∧ c ≠ 'p') (s : List Char) :
    afterPhrase? (c :: s) = none := by
  have hschemas : "Schemas validity error".toList = 'S' :: "chemas validity error".toList := by
    decide
  have hparser : "parser error".toList = 'p' :: "arser error".toList := by decide
  rw [afterPhrase?, phrases, List.findSome?_cons, hschemas, after?_cons_of_ne h.1.symm]
  rw [List.findSome?_cons, hparser, after?_cons_of_ne h.2.symm]
  rfl

/-- No phrase stands in a text without spaces that a colon follows. -/
theorem silent_afterPhrase {t : List Char} (ht : ∀ c ∈ t, c ≠ ' ') (s : List Char) :
    Silent afterPhrase? t (':' :: s) := by
  induction t with
  | nil => trivial
  | cons c t ih =>
    refine ⟨?_, ih fun d hd => ht d (List.mem_cons_of_mem c hd)⟩
    have hschemas : "Schemas validity error".toList =
        "Schemas".toList ++ ' ' :: "validity error".toList := by decide
    have hparser : "parser error".toList = "parser".toList ++ ' ' :: "error".toList := by decide
    have hfirst := @after?_eq_none_of_colon "Schemas".toList "validity error".toList (c :: t)
      (List.all_iff_forall_prop.mp (by decide)) ht s
    have hsecond := @after?_eq_none_of_colon "parser".toList "error".toList (c :: t)
      (List.all_iff_forall_prop.mp (by decide)) ht s
    rw [← hschemas, List.cons_append] at hfirst
    rw [← hparser, List.cons_append] at hsecond
    rw [afterPhrase?, phrases, List.findSome?_cons, hfirst]
    rw [List.findSome?_cons, hsecond]
    rfl

/-- A phrase and its colon are passed over with the blanks around the colon. -/
theorem afterPhrase?_append {p : String} (hp : p ∈ phrases) {bs : List Char}
    (hbs : ∀ c ∈ bs, isBlank c = true) (t : List Char) :
    afterPhrase? (p.toList ++ (bs ++ ':' :: t)) = some ((), t.dropWhile isBlank) := by
  have hcolon : (bs ++ ':' :: t).dropWhile isBlank = ':' :: t :=
    dropWhile_blanks_append hbs (head?_cons_eq_false (by decide) t)
  have hother : ∀ t, after? "Schemas validity error".toList ("parser error".toList ++ t) = none :=
    fun t => after?_cons_of_ne (by decide) _ _
  rw [afterPhrase?]
  rcases List.mem_pair.mp hp with rfl | rfl
  · rw [phrases, List.findSome?_cons, after?_append]
    simp only [Option.bind_eq_bind, Option.bind_some, hcolon, after?_cons_cons, after?_nil]
  · rw [phrases, List.findSome?_cons, hother, List.findSome?_cons, after?_append]
    simp only [Option.bind_eq_bind, Option.bind_none, Option.bind_some, hcolon, after?_cons_cons,
      after?_nil]

/-- What is read as a phrase is one of the phrases, blanks and a colon, and the text goes on behind
further blanks. -/
theorem exists_of_afterPhrase? {s rest : List Char} (h : afterPhrase? s = some ((), rest)) :
    ∃ p ∈ phrases, ∃ bs t, (∀ c ∈ bs, isBlank c = true) ∧ s = p.toList ++ (bs ++ ':' :: t) ∧
      rest = t.dropWhile isBlank := by
  obtain ⟨p, hp, hread⟩ := List.exists_of_findSome?_eq_some h
  simp only [Option.bind_eq_bind, Option.bind_eq_some_iff, Option.some.injEq, Prod.mk.injEq,
    true_and] at hread
  obtain ⟨u, hu, t, ht, rfl⟩ := hread
  refine ⟨p, hp, u.takeWhile isBlank, t, fun c hc => List.mem_takeWhile_imp hc, ?_, rfl⟩
  have hblanks : u = u.takeWhile isBlank ++ ':' :: t := by
    conv_lhs => rw [← List.takeWhile_append_dropWhile (p := isBlank) (l := u)]
    rw [after?_eq_some.mp ht]
    rfl
  rw [after?_eq_some.mp hu, ← hblanks]

/-- A phrase and its colon are passed over with the blanks behind them. -/
theorem afterPhrase?_phrase {p : String} (hp : p ∈ phrases) {s : List Char}
    (h : ∀ c ∈ s.head?, isBlank c = false) :
    afterPhrase? (p.toList ++ ' ' :: ':' :: ' ' :: s) = some ((), s) := by
  have hspace : ∀ c ∈ [' '], isBlank c = true := List.forall_mem_singleton.mpr rfl
  have hread := afterPhrase?_append hp hspace (' ' :: s)
  rwa [List.dropWhile_cons_of_pos (by decide), dropWhile_isBlank_eq_self h] at hread

/-! ## The line number -/

/-- A line number is digits between colons, and the text goes on behind blanks. -/
theorem lineNumber?_eq_some {s ds rest : List Char} : lineNumber? s = some (ds, rest) ↔
    ds ≠ [] ∧ (∀ c ∈ ds, isDigit c = true) ∧
      ∃ t, s = ':' :: (ds ++ ':' :: t) ∧ rest = t.dropWhile isBlank := by
  constructor
  · intro h
    unfold lineNumber? at h
    split at h
    · rename_i u
      split at h
      · rename_i t hdrop
        split at h
        · exact absurd h (by simp)
        · rename_i hempty
          obtain ⟨rfl, rfl⟩ := Prod.mk.inj (Option.some.inj h)
          refine ⟨by simpa using hempty, fun c hc => List.mem_takeWhile_imp hc, t, ?_, rfl⟩
          rw [← hdrop, List.takeWhile_append_dropWhile]
      · exact absurd h (by simp)
    · exact absurd h (by simp)
  · rintro ⟨hne, hdigits, t, rfl, rfl⟩
    have hcolon : ∀ c ∈ (':' :: t).head?, isDigit c = false :=
      head?_cons_eq_false (by decide) t
    have htake : (ds ++ ':' :: t).takeWhile isDigit = ds := by
      rw [takeWhile_append_of_head hcolon, List.takeWhile_eq_self_iff.mpr hdigits]
    have hdrop : (ds ++ ':' :: t).dropWhile isDigit = ':' :: t := by
      rw [dropWhile_append_of_head hcolon, List.dropWhile_eq_nil_iff.mpr hdigits, List.nil_append]
    rw [lineNumber?, hdrop, htake]
    simp [hne]

/-- A number between colons is read with the text behind it. -/
theorem lineNumber?_decimal (n : Nat) (s : List Char) :
    lineNumber? (':' :: (decimal n ++ ':' :: s)) = some (decimal n, s.dropWhile isBlank) :=
  lineNumber?_eq_some.mpr
    ⟨decimal_ne_nil n, fun _ hc => isDigit_of_isDigit (isDigit_of_mem_decimal hc), s, rfl, rfl⟩

/-- A line number begins with a colon. -/
theorem lineNumber?_cons_of_ne {c : Char} (h : c ≠ ':') (s : List Char) :
    lineNumber? (c :: s) = none := by
  unfold lineNumber?
  split
  · exact absurd (List.cons.inj ‹_›).1 h
  · rfl

/-! ## Announcements -/

/-- The announcement of a finding behind a path: the line number, a lead, a phrase and a message. -/
def announcement (n : Nat) (lead : List Char) (p : String) (message : List Char) : List Char :=
  ':' :: (decimal n ++ ':' :: ' ' :: (lead ++ (p.toList ++ ' ' :: ':' :: ' ' :: message)))

/-- The words between the line number and the phrase of a finding about an element. -/
def elementLead (name : List Char) : List Char :=
  "element ".toList ++ name ++ [':', ' ']

/-- No phrase stands in the lead of a finding about an element whose name has no spaces. -/
theorem silent_elementLead {name : List Char} (h : ∀ c ∈ name, c ≠ ' ') (s : List Char) :
    Silent afterPhrase? (elementLead name) s := by
  have hword : ∀ c ∈ "element ".toList, c ≠ 'S' ∧ c ≠ 'p' :=
    List.all_iff_forall_prop.mp (by decide)
  have hcolon : ∀ c ∈ [':', ' '], c ≠ 'S' ∧ c ≠ 'p' := List.all_iff_forall_prop.mp (by decide)
  -- A phrase may seem to begin inside the name, but it has a space, which no name has.
  have hbefore : ∀ u, Silent afterPhrase? ("element ".toList) u :=
    silent_of_forall_mem fun c hc => afterPhrase?_cons_of_ne (hword c hc)
  have hbehind : ∀ u, Silent afterPhrase? [':', ' '] u :=
    silent_of_forall_mem fun c hc => afterPhrase?_cons_of_ne (hcolon c hc)
  unfold elementLead
  exact silent_append.mpr ⟨silent_append.mpr ⟨hbefore _, silent_afterPhrase h _⟩, hbehind s⟩

/-- The lead of a finding about an element begins with no blank. -/
theorem head?_elementLead (name s : List Char) :
    ∀ c ∈ (elementLead name ++ s).head?, isBlank c = false := by
  have hword : "element ".toList = 'e' :: "lement ".toList := by decide
  have hhead : (elementLead name ++ s).head? = some 'e' := by
    unfold elementLead
    rw [hword]
    simp only [List.cons_append, List.head?_cons]
  intro c hc
  rw [hhead] at hc
  obtain rfl : 'e' = c := Option.some.inj hc
  decide

/-- A character of a name is no line end. -/
theorem isLineEnd_eq_false_of_isPrefixChar {c : Char} (h : isPrefixChar c = true) :
    isLineEnd c = false := by
  have hrange := toNat_of_isPrefixChar h
  simp only [isLineEnd, decide_eq_false_iff_not]
  omega

/-- The lead of a finding about an element holds a line end only in the name. -/
theorem isLineEnd_of_mem_elementLead {name : List Char} (h : ∀ c ∈ name, isLineEnd c = false) :
    ∀ c ∈ elementLead name, isLineEnd c = false := by
  unfold elementLead
  simp only [List.forall_mem_append]
  exact ⟨⟨List.all_iff_forall_prop.mp (by decide), h⟩, List.all_iff_forall_prop.mp (by decide)⟩

/-- An announcement holds a line end only in its lead or its message. -/
theorem isLineEnd_of_mem_announcement {lead message : List Char} {p : String} (hp : p ∈ phrases)
    (hlead : ∀ c ∈ lead, isLineEnd c = false) (hmessage : ∀ c ∈ message, isLineEnd c = false)
    (n : Nat) : ∀ c ∈ announcement n lead p message, isLineEnd c = false := by
  have hdigits : ∀ c ∈ decimal n, isLineEnd c = false := fun c hc =>
    isLineEnd_eq_false_of_isPrefixChar (isPrefixChar_of_isDigit (isDigit_of_mem_decimal hc))
  have hphrase : ∀ c ∈ p.toList, isLineEnd c = false := by
    rcases List.mem_pair.mp hp with rfl | rfl <;> exact List.all_iff_forall_prop.mp (by decide)
  unfold announcement
  simp only [List.forall_mem_append, List.forall_mem_cons]
  exact ⟨by decide, hdigits, by decide, by decide, hlead, hphrase, by decide, by decide, by decide,
    hmessage⟩

/-- An announcement behind a path without colons is read as the digits of its line and its message
without blanks at the ends, when no phrase stands in its lead. -/
theorem finding?_announcement {path lead message : List Char} {p : String} (hp : p ∈ phrases)
    (hpath : ∀ c ∈ path, c ≠ ':') (hlead : ∀ s, Silent afterPhrase? lead s)
    (hhead : ∀ c ∈ (lead ++ p.toList).head?, isBlank c = false)
    (hmessage : ∀ c ∈ message.head?, isBlank c = false) (n : Nat) :
    finding? (path ++ announcement n lead p message) = some (decimal n, strip message) := by
  -- No line number begins in the path, where no colon stands.
  have hbefore : ∀ s, Silent announced? path s := by
    refine silent_of_forall_mem fun c hc s => ?_
    rw [announced?, lineNumber?_cons_of_ne (hpath c hc)]
    rfl
  have hne : lead ++ p.toList ≠ [] := by
    refine List.append_ne_nil_of_right_ne_nil _ ?_
    rcases List.mem_pair.mp hp with rfl | rfl <;> decide
  have hblank : (' ' :: (lead ++ (p.toList ++ ' ' :: ':' :: ' ' :: message))).dropWhile isBlank =
      lead ++ (p.toList ++ ' ' :: ':' :: ' ' :: message) := by
    rw [List.dropWhile_cons_of_pos (by decide), ← List.append_assoc]
    refine dropWhile_isBlank_eq_self fun c hc => hhead c ?_
    rwa [List.head?_append_of_ne_nil _ hne] at hc
  have hread : announced? (announcement n lead p message) =
      some ((decimal n, message), message) := by
    rw [announced?, announcement, lineNumber?_decimal, hblank]
    simp only [Option.bind_eq_bind, Option.bind_some,
      leftmost?_append_of_silent (hlead _) (afterPhrase?_phrase hp hmessage)]
  rw [finding?, firstForm?_append_of_silent (hbefore _) hread]
  rfl

/-! ## A finding in a log -/

/-- A finding of a schema validator about an element. -/
structure SchemaFinding where
  /-- The path of the document. -/
  path : List Char
  /-- The line of the document. -/
  line : Nat
  /-- The local name of the element. -/
  name : LocalName
  /-- The namespace of the element. -/
  uri : List Char
  /-- The text that the message ends with. -/
  detail : List Char
  /-- The path holds no colon and does not end the line. -/
  path_ok : ∀ c ∈ path, c ≠ ':' ∧ isLineEnd c = false
  /-- The line is one that is read. -/
  line_lt : line < 10 ^ TooLong.limit
  /-- The local name is one of an element. -/
  name_ok : IsElementName name
  /-- The namespace holds no closing brace and does not end the line. -/
  uri_ok : ∀ c ∈ uri, c ≠ '\x7d' ∧ isLineEnd c = false
  /-- The message does not end the line. -/
  detail_ok : ∀ c ∈ detail, isLineEnd c = false
  /-- The message is not taken for a summary. -/
  unsummarised : ¬ summaryPhrase.toList <:+:
    schemaHead uri name.chars ++ ':' :: ' ' :: detail

namespace SchemaFinding

/-- The message of a finding. -/
def message (f : SchemaFinding) : List Char :=
  schemaHead f.uri f.name.chars ++ ':' :: ' ' :: f.detail

/-- The text between the line number and the phrase: the word `element`, the name and a colon. -/
def subject (f : SchemaFinding) : List Char :=
  "element ".toList ++ f.name.chars ++ [':', ' ']

/-- The line of a log that states a finding. -/
def chars (f : SchemaFinding) : List Char :=
  f.path ++ ':' :: (decimal f.line ++ ':' :: ' ' :: (f.subject ++
    ("Schemas validity error".toList ++ ' ' :: ':' :: ' ' :: f.message)))

/-- The issue that a finding stands for. -/
def issue (f : SchemaFinding) : Issue :=
  { line := max f.line 1
    column := 0
    message := String.ofList (strip f.message)
    severity := .error
    ruleId := none
    source := .xsd }

/-- A message begins with a letter. -/
theorem head?_message (f : SchemaFinding) : f.message.head? = some 'E' := by
  unfold message schemaHead
  have hword : "Element '".toList = 'E' :: "lement '".toList := by decide
  rw [hword]
  rfl

/-- The line of a finding is its path and its announcement. -/
theorem chars_eq (f : SchemaFinding) : f.chars = f.path ++
    announcement f.line (elementLead f.name.chars) "Schemas validity error" f.message := by
  unfold chars subject announcement elementLead
  rfl

/-- A finding is read as the digits of its line and its message without blanks at the ends. -/
theorem finding?_chars (f : SchemaFinding) :
    finding? f.chars = some (decimal f.line, strip f.message) := by
  have hname : ∀ c ∈ f.name.chars, c ≠ ' ' := by
    rintro c hc rfl
    exact absurd (LocalName.isPrefixChar_of_mem hc) (by decide)
  have hletter : ∀ c ∈ f.message.head?, isBlank c = false := by
    intro c hc
    rw [f.head?_message] at hc
    obtain rfl : 'E' = c := Option.some.inj hc
    decide
  have hphrase : "Schemas validity error" ∈ phrases := List.mem_cons_self
  have hlead := head?_elementLead f.name.chars "Schemas validity error".toList
  rw [chars_eq]
  exact finding?_announcement hphrase (fun c hc => (f.path_ok c hc).1) (silent_elementLead hname)
    hlead hletter f.line

/-- The head of a message stays when the blanks at the ends of the message are dropped. -/
theorem strip_message (f : SchemaFinding) : strip f.message =
    schemaHead f.uri f.name.chars ++ dropEndWhile isBlank (':' :: ' ' :: f.detail) := by
  have hlast : (schemaHead f.uri f.name.chars).getLast? = some '\'' := by
    have hquote : schemaHead f.uri f.name.chars =
        ("Element '".toList ++ '\x7b' :: (f.uri ++ '\x7d' :: f.name.chars)) ++ ['\''] := by
      unfold schemaHead
      simp only [List.append_assoc, List.cons_append]
    rw [hquote, List.getLast?_concat]
  have hne : schemaHead f.uri f.name.chars ≠ [] := by
    intro h
    rw [h] at hlast
    exact absurd hlast (by simp)
  refine strip_append hne (fun c hc => ?_) (fun c hc => ?_) _
  · have hhead : c ∈ f.message.head? := by
      rw [message, List.head?_append, hc]
      rfl
    rw [f.head?_message] at hhead
    obtain rfl : 'E' = c := Option.some.inj hhead
    decide
  · rw [hlast] at hc
    obtain rfl : '\'' = c := Option.some.inj hc
    decide

/-- The line of a finding holds no line end. -/
theorem isLineEnd_of_mem_chars (f : SchemaFinding) : ∀ c ∈ f.chars, isLineEnd c = false := by
  have hname : ∀ c ∈ f.name.chars, isLineEnd c = false := fun c hc =>
    isLineEnd_eq_false_of_isPrefixChar (LocalName.isPrefixChar_of_mem hc)
  have hmessage : ∀ c ∈ f.message, isLineEnd c = false := by
    unfold message schemaHead
    simp only [List.forall_mem_append, List.forall_mem_cons]
    exact ⟨⟨List.all_iff_forall_prop.mp (by decide), by decide, fun c hc => (f.uri_ok c hc).2,
      by decide, hname, by decide, List.forall_mem_nil _⟩, by decide, by decide, f.detail_ok⟩
  have hphrase : "Schemas validity error" ∈ phrases := List.mem_cons_self
  rw [chars_eq, List.forall_mem_append]
  exact ⟨fun c hc => (f.path_ok c hc).2,
    isLineEnd_of_mem_announcement hphrase (isLineEnd_of_mem_elementLead hname) hmessage f.line⟩

/-- The line of a finding states its issue. -/
theorem logIssue?_chars (f : SchemaFinding) : logIssue? f.chars = .ok (some f.issue) := by
  have hstripped : strip f.message <:+: f.message := by
    rw [strip_message, message]
    exact ((List.prefix_append_right_inj _).mpr (dropEndWhile_isPrefix _ _)).isInfix
  have hsummary : occurs summaryPhrase.toList (strip f.message) = false :=
    occurs_eq_false.mpr fun h => f.unsummarised (h.trans hstripped)
  rw [logIssue?, f.finding?_chars]
  simp only [readDigits_decimal f.line_lt, Except.map, hsummary]
  rfl

end SchemaFinding

/-! ## Logs -/

/-- The digits of the line number in each finding of a log. -/
def logRows (log : String) : List (List Char) :=
  (anyLines log.toList).filterMap fun line => (finding? line).map Prod.fst

/-- The line numbers that the findings of a log quote. -/
def quotedLines (log : String) : List Nat :=
  (logRows log).map digitsValue

/-- A line of a log is refused when the line number in its finding is too long. -/
theorem hasResult_logIssue? {line : List Char} :
    HasResult (logIssue? line) ↔
      ∀ ds ∈ (finding? line).map Prod.fst, ds.length ≤ TooLong.limit := by
  unfold logIssue?
  split
  · rename_i hnone
    refine iff_of_true ⟨none, rfl⟩ ?_
    simp [hnone]
  · rename_i digits message hfinding
    rw [hasResult_map, hasResult_readDigits, hfinding]
    simp

/-- A log is read unless the line number in one of its findings is too long. -/
theorem hasResult_logIssues {log : String} :
    HasResult (logIssues log) ↔ ∀ ds ∈ logRows log, ds.length ≤ TooLong.limit := by
  rw [logIssues, hasResult_map, hasResult_mapM]
  simp only [hasResult_logIssue?, logRows, List.mem_filterMap]
  constructor
  · rintro hall ds ⟨line, hline, hds⟩
    exact hall line hline ds hds
  · exact fun hall line hline ds hds => hall ds ⟨line, hline, hds⟩

/-- An issue of a log is an error of the schema, on a line that the log quotes or on the first. -/
theorem of_mem_logIssues {log : String} {issues : List Issue} (h : logIssues log = .ok issues)
    {i : Issue} (hi : i ∈ issues) :
    i.source = .xsd ∧ i.severity = .error ∧ ∃ k ∈ quotedLines log, i.line = max k 1 := by
  obtain ⟨found, hfound, rfl⟩ := map_eq_ok.mp h
  obtain ⟨some?, hmem, hsome⟩ := List.mem_filterMap.mp hi
  obtain rfl : some? = some i := hsome
  obtain ⟨line, hline, hissue⟩ := (mem_mapM_eq_ok hfound).mp hmem
  unfold logIssue? at hissue
  split at hissue
  · exact absurd (Except.ok.inj hissue) (by simp)
  · rename_i digits message hfinding
    obtain ⟨n, hn, hissue⟩ := map_eq_ok.mp hissue
    split at hissue
    · exact absurd hissue (by simp)
    · obtain rfl := Option.some.inj hissue
      refine ⟨rfl, rfl, digitsValue digits, ?_, by rw [(readDigits_eq_ok.mp hn).2]⟩
      refine List.mem_map_of_mem (List.mem_filterMap.mpr ⟨line, hline, ?_⟩)
      rw [hfinding]
      rfl

/-- A log with one line, which may have an end, states the issue of the finding in that line. -/
theorem logIssues_chars (f : SchemaFinding) (ended : Bool) :
    logIssues (String.ofList (f.chars ++ if ended then ['\n'] else [])) = .ok [f.issue] := by
  have hne : f.chars ≠ [] := List.append_ne_nil_of_right_ne_nil _ (List.cons_ne_nil _ _)
  rw [logIssues, String.toList_ofList, anyLines_of_forall_not hne f.isLineEnd_of_mem_chars]
  simp only [List.mapM_cons, List.mapM_nil, f.logIssue?_chars, bind, Except.bind]
  rfl

end StylesheetTrace.Report
