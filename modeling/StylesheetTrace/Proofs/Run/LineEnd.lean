import Mathlib.Data.List.Forall2
import StylesheetTrace.Proofs.Location.Path
import StylesheetTrace.Proofs.Markup.Return
import StylesheetTrace.Proofs.Output.Clean
import StylesheetTrace.Run

/-!
# Line feeds and carriage returns

The clean output of a run is cut into lines at its line feeds, so that a line may keep a carriage
return at its end; the text of a request is cut into lines without it. Both ways a location is
resolved to the same line, and a report states the same issues (`issues_feedLines`): the names of a
path hold no carriage return (`return_not_mem_name`), and of any other name a line has the same tags
with it and without (`sameTags_dropReturn`). Nothing else of a line is looked at when an element is
searched, so that lines with the same tags are searched alike (`findExtent_congr`).
-/

namespace StylesheetTrace.Location

open StylesheetTrace.Text StylesheetTrace.Markup

/-! ## Lines with the same tags -/

/-- Two lines have the same tags of every element whose name holds no carriage return. -/
def SameTags (l m : String) : Prop :=
  ∀ name : String, '\r' ∉ name.toList →
    opensIn name l = opensIn name m ∧ depthDelta name l = depthDelta name m

/-- A line has the same tags without the carriage return at its end. -/
theorem sameTags_dropReturn (l : List Char) :
    SameTags (String.ofList l) (String.ofList (dropReturn l)) := by
  intro name hname
  unfold dropReturn
  split
  · rename_i hlast
    obtain ⟨t, rfl⟩ := List.getLast?_eq_some_iff.mp (beq_iff_eq.mp hlast)
    have hok : isPrefixChar '\r' = false := by decide
    rw [List.dropLast_concat]
    unfold opensIn depthDelta
    simp only [String.toList_ofList]
    rw [hasForm_concat reduces_opening (leaves_opening hok hname),
      count_concat reduces_opening (leaves_opening hok hname),
      count_concat reduces_selfClosing (leaves_selfClosing hok hname),
      count_concat reduces_closing (leaves_closing hok hname)]
    exact ⟨rfl, rfl⟩
  · exact ⟨rfl, rfl⟩

section

variable {ls ms : List String} (h : List.Forall₂ SameTags ls ms)
include h

/-- In lines with the same tags an element is closed on the same line. -/
theorem closingLine_congr {name : String} (hname : '\r' ∉ name.toList) (depth : Int) (i : Nat) :
    closingLine name depth i ls = closingLine name depth i ms := by
  induction h generalizing depth i with
  | nil => rfl
  | cons hline _ ih => rw [closingLine, closingLine, (hline name hname).2, ih]

/-- In lines with the same tags an element has the same extent. -/
theorem extentFrom_congr {name : String} (hname : '\r' ∉ name.toList) (n i : Nat) :
    extentFrom name n i ls = extentFrom name n i ms := by
  induction h generalizing n i with
  | nil => rfl
  | cons hline htail ih =>
    obtain ⟨hopens, hdelta⟩ := hline name hname
    rw [extentFrom, extentFrom, hopens, hdelta, closingLine_congr htail hname, ih, ih]

/-- In lines with the same tags an element is found in the same extent of a window. -/
theorem findExtent_congr {name : String} (hname : '\r' ∉ name.toList) (n : Nat)
    (first last : Int) : findExtent name n ls first last = findExtent name n ms first last := by
  unfold findExtent
  rw [h.length_eq]
  exact extentFrom_congr (List.forall₂_take _ (List.forall₂_drop _ h)) hname n _

/-- In lines with the same tags the steps of a path are found in the same extents. -/
theorem trailIn_congr {path : List Step} (hpath : ∀ s ∈ path, '\r' ∉ s.name.toList)
    (first last : Int) : trailIn ls path first last = trailIn ms path first last := by
  induction path generalizing first last with
  | nil => rfl
  | cons s path ih =>
    obtain ⟨hs, hrest⟩ := List.forall_mem_cons.mp hpath
    rw [trailIn, trailIn, findExtent_congr h hs]
    cases findExtent s.name s.index ms first last with
    | none => rfl
    | some e => exact congrArg (e :: ·) (ih hrest (e.first + 1) e.last)

end

/-! ## The names of a path -/

/-- The name of a step that is read holds no carriage return. -/
theorem return_not_mem_stepOf? {part : List Char} {s : Step} (h : stepOf? part = .ok (some s)) :
    '\r' ∉ s.name.toList := by
  unfold stepOf? at h
  split at h
  · exact absurd h (by simp)
  · split at h
    · rename_i name rest hfound
      obtain ⟨k, -, hs⟩ := map_eq_ok.mp h
      obtain rfl := Option.some.inj hs
      have hread : ∃ t, name? t = some (name, rest) := by
        rcases Option.or_eq_some_iff.mp hfound with hbehind | ⟨-, hwhole⟩
        · obtain ⟨t, -, ht⟩ := Option.bind_eq_some_iff.mp hbehind
          exact ⟨t, ht⟩
        · exact ⟨part, hwhole⟩
      obtain ⟨t, ht⟩ := hread
      rw [String.toList_ofList]
      intro hmem
      rcases (word?_eq_some ht).2 '\r' hmem with hfirst | hrest
      · exact absurd hfirst (by decide)
      · exact absurd hrest (by decide)
    · exact absurd h (by simp)

/-- The names of a path hold no carriage return. -/
theorem return_not_mem_name {path : String} {ss : List Step} (h : steps path = .ok ss) :
    ∀ s ∈ ss, '\r' ∉ s.name.toList := by
  intro s hs
  unfold steps at h
  obtain ⟨t, -, h⟩ := bind_eq_ok.mp h
  obtain ⟨found, hfound, h⟩ := bind_eq_ok.mp h
  obtain rfl := Except.ok.inj h
  obtain ⟨step?, hmem, hstep⟩ := List.mem_filterMap.mp hs
  obtain rfl : step? = some s := hstep
  obtain ⟨part, -, hpart⟩ := (mem_mapM_eq_ok hfound).mp hmem
  exact return_not_mem_stepOf? hpart

/-- In lines with the same tags a path leads to the same line. -/
theorem locate?_congr {ls ms : List String} (h : List.Forall₂ SameTags ls ms) {path : String}
    {ss : List Step} (hsteps : steps path = .ok ss) : locate? ss ls = locate? ss ms := by
  unfold locate? trail
  rw [h.length_eq, trailIn_congr h (return_not_mem_name hsteps)]

/-- In lines with the same tags a path is resolved to the same line. -/
theorem resolve_congr {ls ms : List String} (h : List.Forall₂ SameTags ls ms) (path : String)
    (fallback : Int) : resolve path ls fallback = resolve path ms fallback := by
  unfold resolve
  cases hsteps : steps path with
  | error e => rfl
  | ok ss =>
    simp only [Except.map]
    rw [locate?_congr h hsteps]

end StylesheetTrace.Location

namespace StylesheetTrace

open StylesheetTrace.Text StylesheetTrace.Location StylesheetTrace.Report

/-! ## The lines of a text -/

/-- The lines of a text that end with a line feed each: a carriage return before it belongs to the
line. -/
def feedLines (text : String) : List String :=
  (splitOn '\n' text.toList).map String.ofList

/-- The lines of a text have the same tags, be a carriage return part of them or of their ends. -/
theorem sameTags_feedLines (text : String) :
    List.Forall₂ SameTags (feedLines text) (linesOf text) := by
  unfold feedLines linesOf
  generalize text.toList = s
  induction s using feed_induction with
  | last t ht =>
    rw [splitOn_of_not_mem ht, lines_of_not_mem ht]
    exact List.Forall₂.cons (fun _ _ => ⟨rfl, rfl⟩) List.Forall₂.nil
  | line t u ht ih =>
    rw [splitOn_append_cons ht, lines_append_feed ht]
    exact List.Forall₂.cons (sameTags_dropReturn t) ih

/-- In lines with the same tags violations stand for the same issues. -/
theorem issuesOf_congr {ls ms : List String} (h : List.Forall₂ SameTags ls ms) (source : Source)
    (vs : List Violation) : issuesOf source ls vs = issuesOf source ms vs := by
  have hissue : issueOf source ls = issueOf source ms := by
    funext v
    unfold issueOf
    cases hsteps : steps v.location with
    | error e => rfl
    | ok ss =>
      simp only [Except.map]
      rw [locate?_congr h hsteps]
  unfold issuesOf
  rw [hissue]

/-- In lines with the same tags a report states the same issues. -/
theorem Tracer.reportIssues_congr {ls ms : List String} (h : List.Forall₂ SameTags ls ms)
    (t : Tracer) (report : ValidatorReport) :
    t.reportIssues ls report = t.reportIssues ms report := by
  unfold Tracer.reportIssues
  split
  · rfl
  · simp only [issuesOf_congr h]

/-- It does not matter whether the carriage returns of a text are part of its lines: every path is
resolved to the same line, and every report states the same issues. The lines of a clean output are
those that end with a line feed. -/
theorem issues_feedLines :
    (∀ path text fallback,
      resolve path (feedLines text) fallback = resolve path (linesOf text) fallback) ∧
    (∀ source text vs, issuesOf source (feedLines text) vs = issuesOf source (linesOf text) vs) ∧
    (∀ (t : Tracer) text report,
      t.reportIssues (feedLines text) report = t.reportIssues (linesOf text) report) ∧
    ∀ sentinel raw, (Output.split sentinel raw).map Output.Split.lines =
      (Output.split sentinel raw).map fun s => feedLines s.text := by
  refine ⟨fun path text fallback => ?_, fun source text vs => ?_, fun t text report => ?_,
    fun sentinel raw => ?_⟩
  · exact resolve_congr (sameTags_feedLines text) path fallback
  · exact issuesOf_congr (sameTags_feedLines text) source vs
  · exact t.reportIssues_congr (sameTags_feedLines text) report
  · cases hsplit : Output.split sentinel raw with
    | error e => rfl
    | ok s =>
      have hlines : s.lines = feedLines s.text := by
        rw [feedLines, Output.splitOn_text hsplit, List.map_map]
        exact (List.map_id'' (fun l => String.ofList_toList) s.lines).symm
      simp only [Except.map, hlines]

/-- The carriage return of a first line, which is part of it or not. -/
example : feedLines "<a>\r\n</a>" = ["<a>\r", "</a>"] ∧
    linesOf "<a>\r\n</a>" = ["<a>", "</a>"] := by
  decide

end StylesheetTrace
