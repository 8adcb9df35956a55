import StylesheetTrace.Proofs.RunStore.Log
import StylesheetTrace.Proofs.Text.Refusal

/-!
# Recording a run

A run that is recorded under a new identifier stands behind all others. Under an identifier that is
in use it takes the place of the run that has it: that run is gone, the store does not grow, and the
new run stands where the old one stood, so that it need be neither the last of the list nor the
latest of its document. In every state of a store one of the two is the case (`record_cases`), since
no two of its runs have one identifier (`Reached.nodup`); and so recording keeps every run, and
brings the new one to the end, exactly when its identifier is new (`record_keeps_iff`).
-/

namespace StylesheetTrace.RunStore

/-- The states of a store: runs are recorded, under any identifiers, and runs are removed. -/
inductive Reached : RunStore → Prop
  | empty : Reached .empty
  | record {s : RunStore} (hs : Reached s) (r : RunRecord) : Reached (s.record r)
  | remove {s s' : RunStore} {id : String} (hs : Reached s) (h : s.remove id = .ok s') : Reached s'

section

variable {s : RunStore} {r : RunRecord}

/-- A run under an identifier in use takes the place of the run that has it. -/
theorem record_of_mem (h : r.id ∈ s.ids) :
    s.record r = ⟨s.runs.map fun q => if q.id == r.id then r else q⟩ := by
  obtain ⟨q, hq, hid⟩ := List.mem_map.mp h
  have hused : (s.runs.any fun q => q.id == r.id) = true :=
    List.any_eq_true.mpr ⟨q, hq, beq_iff_eq.mpr hid⟩
  rw [record, if_pos hused]

/-- Recording under an identifier in use keeps the identifiers and their order. -/
theorem ids_record_of_mem (h : r.id ∈ s.ids) : (s.record r).ids = s.ids := by
  rw [record_of_mem h, ids, ids, List.map_map]
  refine List.map_congr_left fun q _ => ?_
  rw [Function.comp_apply]
  split
  · rename_i hid
    exact (beq_iff_eq.mp hid).symm
  · rfl

/-- Recording under a new identifier puts it behind the others. -/
theorem ids_record_of_not_mem (h : r.id ∉ s.ids) : (s.record r).ids = s.ids ++ [r.id] := by
  rw [record_of_not_mem h, ids, List.map_append]
  rfl

/-- Whatever identifiers are handed out, no two runs of a store have one. -/
theorem Reached.nodup (hs : s.Reached) : s.ids.Nodup := by
  induction hs with
  | empty => exact List.nodup_nil
  | @record s _ r ih =>
    by_cases h : r.id ∈ s.ids
    · rwa [ids_record_of_mem h]
    · rw [ids_record_of_not_mem h, ← List.concat_eq_append]
      exact ih.concat h
  | remove _ h ih =>
    obtain ⟨_, -, rfl⟩ := Text.map_eq_ok.mp h
    exact ih.sublist (List.filter_sublist.map RunRecord.id)

/-- A run is recorded behind all others, or in the place of the one run that has its identifier. -/
theorem record_cases (hids : s.ids.Nodup) (r : RunRecord) :
    (r.id ∉ s.ids ∧ s.record r = ⟨s.runs ++ [r]⟩) ∨
    ∃ older q newer, s.runs = older ++ q :: newer ∧ q.id = r.id ∧
      (∀ p ∈ older ++ newer, p.id ≠ r.id) ∧ s.record r = ⟨older ++ r :: newer⟩ := by
  by_cases h : r.id ∈ s.ids
  · refine Or.inr ?_
    obtain ⟨q, hq, hid⟩ := List.mem_map.mp h
    obtain ⟨older, newer, hruns⟩ := List.append_of_mem hq
    -- The identifier stands in no other run, so that only this one is replaced.
    have hother : ∀ p ∈ older ++ newer, p.id ≠ r.id := by
      rw [ids, hruns, List.map_append, List.map_cons] at hids
      have hnew := (List.nodup_cons.mp (List.nodup_middle.mp hids)).1
      rw [← List.map_append, hid] at hnew
      exact fun p hp hsame => hnew (hsame ▸ List.mem_map_of_mem hp)
    have hkept : ∀ ps : List RunRecord, (∀ p ∈ ps, p.id ≠ r.id) →
        ps.map (fun q => if q.id == r.id then r else q) = ps := by
      intro ps hps
      refine (List.map_congr_left fun p hp => ?_).trans (List.map_id ps)
      exact if_neg fun hsame => hps p hp (beq_iff_eq.mp hsame)
    refine ⟨older, q, newer, hruns, hid, hother, ?_⟩
    rw [record_of_mem h, hruns, List.map_append, List.map_cons, if_pos (beq_iff_eq.mpr hid),
      hkept _ fun p hp => hother p (List.mem_append_left _ hp),
      hkept _ fun p hp => hother p (List.mem_append_right _ hp)]
  · exact Or.inl ⟨h, record_of_not_mem h⟩

/-- The runs after a recording are the new one and those with other identifiers. -/
theorem mem_record (hids : s.ids.Nodup) {p : RunRecord} :
    p ∈ (s.record r).runs ↔ p = r ∨ p ∈ s.runs ∧ p.id ≠ r.id := by
  rcases record_cases hids r with ⟨hnew, hrecord⟩ | ⟨older, q, newer, hruns, hid, hother, hrecord⟩
  · have hids : p ∈ s.runs → p.id ≠ r.id := fun hp hsame => hnew (hsame ▸ List.mem_map_of_mem hp)
    rw [hrecord, List.mem_append, List.mem_singleton]
    tauto
  · have hq : p = q → p.id = r.id := fun hsame => hsame ▸ hid
    have hp : p ∈ older ∨ p ∈ newer → p.id ≠ r.id := fun h => hother p (List.mem_append.mpr h)
    rw [hrecord, hruns, List.mem_append, List.mem_cons, List.mem_append, List.mem_cons]
    tauto

/-- In a store a run stands in one place. -/
theorem place_unique (hids : s.ids.Nodup) {a a' b b' : List RunRecord} {p q : RunRecord}
    (hp : s.runs = a ++ p :: b) (hq : s.runs = a' ++ q :: b') (hid : p.id = q.id) : b = b' := by
  have hmemp : p ∈ s.runs := hp ▸ List.mem_append_right a List.mem_cons_self
  have hmemq : q ∈ s.runs := hq ▸ List.mem_append_right a' List.mem_cons_self
  obtain rfl : p = q := List.inj_on_of_nodup_map hids hmemp hmemq hid
  have hdistinct : s.runs.Nodup := List.Nodup.of_map RunRecord.id hids
  have helse : p ∉ a ++ b := (List.nodup_cons.mp (List.nodup_middle.mp (hp ▸ hdistinct))).1
  rw [List.mem_append, not_or] at helse
  exact ((List.append_cons_inj_of_notMem helse.1 helse.2).mp (hp.symm.trans hq)).2.2

/-- The last summary is that of the new run exactly when the last identifier is its own. -/
theorem getLast?_summaries (hids : s.ids.Nodup) (hr : r ∈ s.runs) :
    s.summaries.getLast? = some r.summary ↔ s.ids.getLast? = some r.id := by
  rw [summaries, ids, List.getLast?_map, List.getLast?_map, Option.map_eq_some_iff,
    Option.map_eq_some_iff]
  refine exists_congr fun p => and_congr_right fun hp => ⟨congrArg RunSummary.id, fun hid => ?_⟩
  rw [List.inj_on_of_nodup_map hids (List.mem_of_getLast? hp) hr hid]

end

/-! ## What recording keeps -/

/-- In every state of a store recording a run makes the store greater by one exactly when the
identifier is new. It keeps every run under its identifier exactly when this is so, or when the run
is recorded once more as it stands. The new run is the last of the list exactly when its identifier
is new or that of the last run, and it is the latest of its document exactly when its identifier is
new or no run of the document stands behind the one that it replaces. Under its own identifier it is
found in any case, and so are the runs with other identifiers under theirs. -/
theorem record_keeps_iff {s : RunStore} (hs : s.Reached) (r : RunRecord) :
    ((s.record r).size = s.size + 1 ↔ r.id ∉ s.ids) ∧
    ((∀ q ∈ s.runs, (s.record r).get q.id = .ok q) ↔ r.id ∉ s.ids ∨ r ∈ s.runs) ∧
    ((s.record r).summaries.getLast? = some r.summary ↔
      r.id ∉ s.ids ∨ s.ids.getLast? = some r.id) ∧
    ((s.record r).latest? r.document = some r ↔ r.id ∉ s.ids ∨
      ∃ older q newer, s.runs = older ++ q :: newer ∧ q.id = r.id ∧
        ∀ p ∈ newer, p.document ≠ r.document) ∧
    (s.record r).get r.id = .ok r ∧
    ∀ q ∈ s.runs, q.id ≠ r.id → (s.record r).get q.id = .ok q := by
  have hids := hs.nodup
  have hafter := (hs.record r).nodup
  have hnewest : r ∈ (s.record r).runs := (mem_record hids).mpr (Or.inl rfl)
  have hfound : (s.record r).get r.id = .ok r := get_of_mem hafter hnewest
  have hothers : ∀ q ∈ s.runs, q.id ≠ r.id → (s.record r).get q.id = .ok q := fun q hq hid =>
    get_of_mem hafter ((mem_record hids).mpr (Or.inr ⟨hq, hid⟩))
  have hids' : (s.record r).ids = if r.id ∈ s.ids then s.ids else s.ids ++ [r.id] := by
    split
    · exact ids_record_of_mem ‹_›
    · exact ids_record_of_not_mem ‹_›
  refine ⟨?_, ⟨fun hkept => ?_, fun h q hq => ?_⟩, ?_, ?_, hfound, hothers⟩
  · have hsize : ∀ u : RunStore, u.size = u.ids.length := fun u => (List.length_map _).symm
    rw [hsize, hsize, hids']
    split <;> simp [*]
  · by_contra hlost
    obtain ⟨hused, hnot⟩ := not_or.mp hlost
    obtain ⟨q, hq, hid⟩ := List.mem_map.mp (not_not.mp hused)
    -- The run that had the identifier is found no more.
    have hsame := (hkept q hq).symm.trans (hid ▸ hfound)
    exact hnot (Except.ok.inj hsame ▸ hq)
  · by_cases hid : q.id = r.id
    · rcases h with hnew | hr
      · exact absurd (hid ▸ List.mem_map_of_mem hq) hnew
      · rw [hid, hfound, List.inj_on_of_nodup_map hids hq hr hid]
    · exact hothers q hq hid
  · rw [getLast?_summaries hafter hnewest, hids']
    split <;> simp [*]
  · rw [latest?_eq_some]
    rcases record_cases hids r with ⟨hnew, hrecord⟩ | ⟨older, q, newer, hruns, hid, hother, hrecord⟩
    · exact iff_of_true ⟨s.runs, [], by rw [hrecord], rfl, List.forall_mem_nil _⟩ (Or.inl hnew)
    · have hused : r.id ∈ s.ids := hid ▸ List.mem_map_of_mem (hruns ▸ by simp)
      have hplace : (s.record r).runs = older ++ r :: newer := by rw [hrecord]
      constructor
      · rintro ⟨a, b, hruns', -, hb⟩
        rw [place_unique hafter hruns' hplace rfl] at hb
        exact Or.inr ⟨older, q, newer, hruns, hid, hb⟩
      · rintro (hnew | ⟨a, q', b, hruns', hid', hb⟩)
        · exact absurd hused hnew
        · rw [place_unique hids hruns' hruns (hid'.trans hid.symm)] at hb
          exact ⟨older, newer, hplace, rfl, hb⟩

/-- A run of one document, without output and without reports. -/
def sampleRun (id : String) (now : Int) : RunRecord :=
  ⟨id, "d", ⟨⟨[], []⟩, none, [], [], [], []⟩, now⟩

/-- A store with two runs of the document. -/
def sampleStore : RunStore := (empty.record (sampleRun "1" 0)).record (sampleRun "2" 5)

/-- A third run under the identifier of the first one takes its place: there are two runs as before,
the first is lost, and the second is still the last of the list and the latest of the document.
Under an identifier of its own the third run is all this, and no run is lost. -/
theorem record_keeps_iff_sampleStore :
    ((sampleStore.record (sampleRun "1" 7)).size ≠ sampleStore.size + 1 ∧
      ¬ (∀ q ∈ sampleStore.runs, (sampleStore.record (sampleRun "1" 7)).get q.id = .ok q) ∧
      (sampleStore.record (sampleRun "1" 7)).summaries.getLast? ≠ some (sampleRun "1" 7).summary ∧
      (sampleStore.record (sampleRun "1" 7)).latest? "d" ≠ some (sampleRun "1" 7)) ∧
    ((sampleStore.record (sampleRun "3" 7)).size = sampleStore.size + 1 ∧
      (∀ q ∈ sampleStore.runs, (sampleStore.record (sampleRun "3" 7)).get q.id = .ok q) ∧
      (sampleStore.record (sampleRun "3" 7)).summaries.getLast? = some (sampleRun "3" 7).summary ∧
      (sampleStore.record (sampleRun "3" 7)).latest? "d" = some (sampleRun "3" 7)) := by
  have hreached : sampleStore.Reached := (Reached.empty.record _).record _
  have hused : (sampleRun "1" 7).id ∈ sampleStore.ids := by decide
  have hnew : (sampleRun "3" 7).id ∉ sampleStore.ids := by decide
  obtain ⟨hsize, hkept, hlast, hlatest, -⟩ := record_keeps_iff hreached (sampleRun "1" 7)
  obtain ⟨hsize', hkept', hlast', hlatest', -⟩ := record_keeps_iff hreached (sampleRun "3" 7)
  refine ⟨⟨fun h => hsize.mp h hused, fun h => ?_, fun h => ?_, fun h => ?_⟩,
    hsize'.mpr hnew, hkept'.mpr (Or.inl hnew), hlast'.mpr (Or.inl hnew), hlatest'.mpr (Or.inl hnew)⟩
  · exact absurd ((hkept.mp h).resolve_left (not_not.mpr hused)) (by decide)
  · exact absurd ((hlast.mp h).resolve_left (not_not.mpr hused)) (by decide)
  · obtain ⟨older, q, newer, hruns, hid, hnone⟩ :=
      (hlatest.mp h).resolve_left (not_not.mpr hused)
    have hplace : sampleStore.runs = [] ++ sampleRun "1" 0 :: [sampleRun "2" 5] := rfl
    rw [place_unique hreached.nodup hruns hplace hid] at hnone
    exact hnone (sampleRun "2" 5) List.mem_cons_self rfl

end StylesheetTrace.RunStore
