import StylesheetTrace.Proofs.Report.SchemaLog
import StylesheetTrace.Proofs.Text.LineEnds

/-!
# Whole logs

The log of a validator holds its findings, each behind the path and the line of the document, lines
that echo the document or point into it, and a summary at the end. A line that shows no number between
colons states nothing, whatever else it says (`logIssues_of_not_showsNumber`). A finding is read back
from its own text alone, also where its path spans lines (`LogEntry.logIssues_chars`). So a whole log
states its findings, one by one and in their order (`logIssues_logText`).
-/

namespace StylesheetTrace.Report

open StylesheetTrace.Text

/-! ## Texts one behind the other -/

/-- Behind a line end that is whole the rest of a log states issues of its own. -/
theorem logIssues_append_end {d : Char} {s t : List Char} {is js : List Issue}
    (hend : isLineEnd d = true) (hd : d = '\r' → t.head? ≠ some '\n')
    (hs : logIssues (String.ofList (s ++ [d])) = .ok is)
    (ht : logIssues (String.ofList t) = .ok js) :
    logIssues (String.ofList (s ++ d :: t)) = .ok (is ++ js) := by
  unfold logIssues at hs ht ⊢
  rw [String.toList_ofList] at hs ht ⊢
  obtain ⟨found, hfound, rfl⟩ := map_eq_ok.mp hs
  obtain ⟨behind, hbehind, rfl⟩ := map_eq_ok.mp ht
  rw [anyLines_append_end hend hd, List.mapM_append, hfound, hbehind]
  exact congrArg Except.ok List.filterMap_append

/-! ## Lines without findings -/

/-- The text shows a number between colons. -/
def ShowsNumber (s : List Char) : Prop :=
  ∃ ds, ds ≠ [] ∧ (∀ c ∈ ds, isDigit c = true) ∧ ':' :: (ds ++ [':']) <:+: s

/-- No line number is read in a text that shows none. -/
theorem lineNumber?_of_not_showsNumber {s u : List Char} (h : ¬ ShowsNumber s) (hu : u <:+ s) :
    lineNumber? u = none := by
  rw [Option.eq_none_iff_forall_not_mem]
  rintro ⟨digits, rest⟩ hread
  obtain ⟨hne, hdigits, t, rfl, -⟩ := lineNumber?_eq_some.mp hread
  have hshown : ':' :: (digits ++ [':']) <+: ':' :: (digits ++ ':' :: t) := ⟨t, by simp⟩
  exact h ⟨digits, hne, hdigits, hshown.isInfix.trans hu.isInfix⟩

/-- A line that shows no number states no finding. -/
theorem finding?_of_not_showsNumber {line : List Char} (h : ¬ ShowsNumber line) :
    finding? line = none := by
  have hannounced : ∀ u, u <:+ line → announced? u = none := by
    intro u hu
    rw [announced?, lineNumber?_of_not_showsNumber h hu]
    rfl
  have hmentioned : ∀ u, u <:+ line → mentioned? u = none := by
    intro u hu
    rw [mentioned?, lineNumber?_of_not_showsNumber h hu]
    rfl
  rw [finding?, firstForm?, firstForm?, leftmost?_of_silent (silent_of_forall_suffix hannounced) rfl,
    leftmost?_of_silent (silent_of_forall_suffix hmentioned) rfl]
  rfl

/-- A text that shows no number states no issue, and none with a line feed behind it. -/
theorem logIssues_of_not_showsNumber {s : List Char} (h : ¬ ShowsNumber s) (ended : Bool) :
    logIssues (String.ofList (s ++ if ended then ['\n'] else [])) = .ok [] := by
  have hline : ∀ line ∈ anyLines (s ++ if ended then ['\n'] else []), logIssue? line = .ok none := by
    intro line hmem
    have hshows : ¬ ShowsNumber line := by
      rintro ⟨ds, hne, hdigits, hstretch⟩
      refine h ⟨ds, hne, hdigits, ?_⟩
      have hwhole := hstretch.trans (infix_of_mem_anyLines hmem).1
      cases ended with
      | false => simpa using hwhole
      | true =>
        -- Digits and colons are no line feed, so that they stand before it.
        have hfeed : '\n' ∉ ':' :: (ds ++ [':']) := by
          simp only [List.mem_cons, List.mem_append, List.not_mem_nil, or_false, not_or]
          exact ⟨by decide, fun hd => absurd (hdigits _ hd) (by decide), by decide⟩
        rcases infix_of_infix_append_cons hfeed hwhole with hs | hnil
        · exact hs
        · exact absurd (List.infix_nil.mp hnil) (List.cons_ne_nil _ _)
    rw [logIssue?, finding?_of_not_showsNumber hshows]
  rw [logIssues, String.toList_ofList, mapM_eq_ok hline]
  simp [Except.map]

/-! ## Findings -/

/-- A finding in a log. -/
structure LogEntry where
  /-- The path of the document. -/
  path : List Char
  /-- The line of the document. -/
  line : Nat
  /-- The name of the element that the finding is about; none where the document could not be
  parsed. -/
  element : Option (List Char)
  /-- The message of the validator. -/
  message : List Char
  /-- The path holds no colon. -/
  path_ok : ∀ c ∈ path, c ≠ ':'
  /-- The line is counted from 1. -/
  line_pos : 1 ≤ line
  /-- The line is one that is read. -/
  line_lt : line < 10 ^ TooLong.limit
  /-- The name of the element ends at the first blank or colon. -/
  element_ok : ∀ name ∈ element, ∀ c ∈ name, isBlank c = false ∧ c ≠ ':'
  /-- The message does not end its line. -/
  message_ok : ∀ c ∈ message, isLineEnd c = false
  /-- The message neither begins nor ends with a blank. -/
  stripped : strip message = message
  /-- The message is not taken for a summary. -/
  unsummarised : ¬ summaryPhrase.toList <:+: message

namespace LogEntry

/-- The words between the line number and the phrase. -/
def lead (e : LogEntry) : List Char :=
  e.element.elim [] elementLead

/-- The phrase that announces the finding. -/
def phrase (e : LogEntry) : String :=
  if e.element.isSome then "Schemas validity error" else "parser error"

/-- The text of a finding: `path:line: element name: Schemas validity error : message`, or
`path:line: parser error : message`. -/
def chars (e : LogEntry) : List Char :=
  e.path ++ announcement e.line e.lead e.phrase e.message

/-- The issue that a finding states. -/
def issue (e : LogEntry) : Issue :=
  { line := e.line
    column := 0
    message := String.ofList e.message
    severity := .error
    ruleId := none
    source := .xsd }

section

variable (e : LogEntry)

/-- The announcement of a finding is one that the reader knows. -/
theorem phrase_mem : e.phrase ∈ phrases := by
  unfold phrase
  split
  · exact List.mem_cons_self
  · exact List.mem_cons_of_mem _ List.mem_cons_self

/-- No phrase stands in the lead of a finding. -/
theorem silent_lead (s : List Char) : Silent afterPhrase? e.lead s := by
  unfold lead
  cases h : e.element with
  | none => trivial
  | some name =>
    refine silent_elementLead (fun c hc => ?_) s
    rintro rfl
    exact absurd (e.element_ok name h ' ' hc).1 (by decide)

/-- Behind the line number stands a word. -/
theorem isBlank_head_lead : ∀ c ∈ (e.lead ++ e.phrase.toList).head?, isBlank c = false := by
  unfold lead phrase
  cases e.element with
  | none =>
    have hfirst : "parser error".toList.head? = some 'p' := rfl
    intro c hc
    obtain rfl : 'p' = c := Option.some.inj (hfirst.symm.trans hc)
    rfl
  | some name => exact head?_elementLead name _

/-- The announcement of a finding holds no line end. -/
theorem isLineEnd_of_mem_announcement :
    ∀ c ∈ announcement e.line e.lead e.phrase e.message, isLineEnd c = false := by
  refine Report.isLineEnd_of_mem_announcement e.phrase_mem ?_ e.message_ok e.line
  unfold lead
  cases h : e.element with
  | none => exact List.forall_mem_nil _
  | some name =>
    refine isLineEnd_of_mem_elementLead fun c hc => ?_
    have hblank := (e.element_ok name h c hc).1
    simp only [isBlank, isLineEnd, decide_eq_false_iff_not] at hblank ⊢
    omega

/-- The line of a finding, with whatever part of its path, states its issue. -/
theorem logIssue?_announcement {path : List Char} (hpath : ∀ c ∈ path, c ≠ ':') :
    logIssue? (path ++ announcement e.line e.lead e.phrase e.message) = .ok (some e.issue) := by
  have hhead := isBlank_head_of_strip_eq_self e.stripped
  have hfinding := finding?_announcement e.phrase_mem hpath e.silent_lead e.isBlank_head_lead hhead
    e.line
  have hsummary : occurs summaryPhrase.toList e.message = false :=
    occurs_eq_false.mpr e.unsummarised
  have hline : max e.line 1 = e.line := Nat.max_eq_left e.line_pos
  rw [logIssue?, hfinding, e.stripped]
  simp only [readDigits_decimal e.line_lt, Except.map, hsummary, hline]
  rfl

/-- The text of a finding states its issue, also with a line feed behind it. -/
theorem logIssues_chars (ended : Bool) :
    logIssues (String.ofList (e.chars ++ if ended then ['\n'] else [])) = .ok [e.issue] := by
  obtain ⟨front, last, hpath, hfront, hlast⟩ := exists_last_part isLineEnd e.path
  have hcolon : ∀ {t}, t ⊆ e.path → ∀ c ∈ t, c ≠ ':' := fun ht c hc => e.path_ok c (ht hc)
  have hplain : ∀ c ∈ last ++ announcement e.line e.lead e.phrase e.message,
      isLineEnd c = false :=
    List.forall_mem_append.mpr ⟨hlast, e.isLineEnd_of_mem_announcement⟩
  have hne : last ++ announcement e.line e.lead e.phrase e.message ≠ [] :=
    List.append_ne_nil_of_right_ne_nil _ (List.cons_ne_nil _ _)
  -- The last line holds the whole announcement, behind what is left of the path.
  have hline : logIssues (String.ofList (last ++ announcement e.line e.lead e.phrase e.message ++
      if ended then ['\n'] else [])) = .ok [e.issue] := by
    have hread := e.logIssue?_announcement (hcolon (hpath ▸ List.subset_append_right front last))
    rw [logIssues, String.toList_ofList, anyLines_of_forall_not hne hplain]
    simp only [List.mapM_cons, List.mapM_nil, hread, bind, Except.bind]
    rfl
  rcases hfront with rfl | ⟨t, d, rfl, hd⟩
  · rw [List.nil_append] at hpath
    rw [chars, hpath]
    exact hline
  · -- The lines before it are part of the path, which shows no number.
    have hnumber : ¬ ShowsNumber (t ++ [d]) := by
      rintro ⟨ds, -, -, hstretch⟩
      exact hcolon (hpath ▸ List.subset_append_left _ last) ':' (hstretch.subset List.mem_cons_self)
        rfl
    have hbefore : logIssues (String.ofList (t ++ [d])) = .ok [] := by
      have hnone := logIssues_of_not_showsNumber hnumber false
      rwa [if_neg Bool.false_ne_true, List.append_nil] at hnone
    have hhead : (last ++ announcement e.line e.lead e.phrase e.message ++
        if ended then ['\n'] else []).head? ≠ some '\n' := by
      rw [List.head?_append_of_ne_nil _ hne]
      exact fun hfeed => absurd (hplain _ (List.mem_of_head? hfeed)) (by decide)
    have hwhole := logIssues_append_end hd (fun _ => hhead) hbefore hline
    rw [List.nil_append] at hwhole
    rw [chars, hpath]
    simpa using hwhole

end

end LogEntry

/-! ## Logs -/

/-- A line of a log: a finding; an echo, which quotes the document or points into it and shows no
number between colons; or the summary, which tells the path of a document with findings. -/
inductive LogLine where
  | finding (e : LogEntry)
  | echo (chars : List Char) (unnumbered : ¬ ShowsNumber chars)
  | summary (path : List Char) (path_ok : ∀ c ∈ path, c ≠ ':')

namespace LogLine

/-- The text of a line of a log; that of a summary is `path fails to validate`. -/
def chars : LogLine → List Char
  | finding e => e.chars
  | echo chars _ => chars
  | summary path _ => path ++ ' ' :: summaryPhrase.toList

/-- The issue that a line of a log states. -/
def issue? : LogLine → Option Issue
  | finding e => some e.issue
  | echo _ _ => none
  | summary _ _ => none

/-- A summary shows no number, since it has no colon. -/
theorem not_showsNumber_summary {path : List Char} (h : ∀ c ∈ path, c ≠ ':') :
    ¬ ShowsNumber (path ++ ' ' :: summaryPhrase.toList) := by
  rintro ⟨ds, -, -, hstretch⟩
  have hcolon : ':' ∈ path ++ ' ' :: summaryPhrase.toList := hstretch.subset List.mem_cons_self
  rcases List.mem_append.mp hcolon with hpath | hphrase
  · exact h ':' hpath rfl
  · exact absurd hphrase (by decide)

/-- The text of a line of a log states its issue, also with a line feed behind it. -/
theorem logIssues_chars (l : LogLine) (ended : Bool) :
    logIssues (String.ofList (l.chars ++ if ended then ['\n'] else [])) = .ok l.issue?.toList := by
  cases l with
  | finding e => exact e.logIssues_chars ended
  | echo chars hnumber => exact logIssues_of_not_showsNumber hnumber ended
  | summary path hpath => exact logIssues_of_not_showsNumber (not_showsNumber_summary hpath) ended

end LogLine

/-- The text of a log: its lines with line feeds between them, and with one at its end if it is
ended. -/
def logText (ls : List LogLine) (ended : Bool) : List Char :=
  ['\n'].intercalate (ls.map LogLine.chars) ++ if ended then ['\n'] else []

/-- A log states its findings, one by one and in their order, whatever their messages quote and
whatever the lines between them echo. -/
theorem logIssues_logText (ended : Bool) (ls : List LogLine) :
    logIssues (String.ofList (logText ls ended)) = .ok (ls.filterMap LogLine.issue?) := by
  induction ls with
  | nil =>
    have hnumber : ¬ ShowsNumber [] := by
      rintro ⟨ds, -, -, hstretch⟩
      exact List.cons_ne_nil _ _ (List.infix_nil.mp hstretch)
    exact logIssues_of_not_showsNumber hnumber ended
  | cons l ls ih =>
    cases ls with
    | nil =>
      rw [logText, List.map_singleton, List.intercalate_singleton, l.logIssues_chars ended]
      cases h : l.issue? <;> simp [h]
    | cons m ls =>
      have hfirst := l.logIssues_chars true
      rw [if_pos rfl] at hfirst
      rw [logText, List.map_cons] at ih ⊢
      rw [List.map_cons, List.intercalate_cons_cons, List.append_assoc, List.append_assoc,
        List.singleton_append,
        logIssues_append_end (by decide) (fun hd => absurd hd (by decide)) hfirst ih]
      cases h : l.issue? <;> simp [h]

/-- A finding whose message quotes the announcement of another one. -/
def announcingEntry : LogEntry where
  path := "my invoice.xml".toList
  line := 12
  element := some "Note".toList
  message := "x:7: parser error : y".toList
  path_ok := List.all_iff_forall_prop.mp (by decide)
  line_pos := by decide
  line_lt := by decide +kernel
  element_ok := by
    rintro _ ⟨rfl⟩
    exact List.all_iff_forall_prop.mp (by decide)
  message_ok := List.all_iff_forall_prop.mp (by decide)
  stripped := by decide
  unsummarised := occurs_eq_false.mp (by decide)

/-- An echo with one colon shows no number between colons. -/
theorem not_showsNumber_echo : ¬ ShowsNumber "  <cbc:Note/>".toList := by
  rintro ⟨ds, -, -, hstretch⟩
  have hcount := hstretch.sublist.count_le ':'
  have hecho : "  <cbc:Note/>".toList.count ':' = 1 := by decide
  have hlast : [':'].count ':' = 1 := rfl
  rw [List.count_cons_self, List.count_append, hecho, hlast] at hcount
  omega

/-- A log with the finding, an echo of the document, and the summary. -/
def announcingLog : List LogLine :=
  [.finding announcingEntry, .echo "  <cbc:Note/>".toList not_showsNumber_echo,
    .summary "my invoice.xml".toList (List.all_iff_forall_prop.mp (by decide))]

/-- The log states its finding, and not the one that its message quotes. -/
theorem logIssues_logText_announcingLog :
    logIssues ("my invoice.xml:12: element Note: Schemas validity error : x:7: parser error : y\n" ++
      "  <cbc:Note/>\nmy invoice.xml fails to validate\n") =
        .ok [⟨12, 0, "x:7: parser error : y", .error, none, .xsd⟩] := by
  have htext : String.ofList (logText announcingLog true) =
      "my invoice.xml:12: element Note: Schemas validity error : x:7: parser error : y\n" ++
        "  <cbc:Note/>\nmy invoice.xml fails to validate\n" := by decide +kernel
  rw [← htext]
  exact logIssues_logText true announcingLog

end StylesheetTrace.Report
