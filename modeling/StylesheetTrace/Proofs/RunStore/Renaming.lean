import Mathlib.Logic.Equiv.Basic
import StylesheetTrace.Proofs.RunStore.Step

/-!
# Runs under other names

The identifier of a run and its time come from outside. A store does the same whatever they are:
when the identifiers are renamed without confusing two of them, in the store and in the actions, the
answers are renamed in the same way (`step_renamed`), and so is a whole history (`answers_renamed`).
The times are left out on both sides, so that they may be any (`answers_of_renamed`). Any
identifiers that repeat themselves in the same places come from one renaming (`exists_renaming`).
-/

namespace StylesheetTrace

/-! ## Renamed data -/

/-- The run with its identifier renamed and its time left out. -/
def RunRecord.renamed (ρ : String → String) (r : RunRecord) : RunRecord :=
  { r with id := ρ r.id, recordedAt := 0 }

/-- The summary with its identifier renamed and its time left out. -/
def RunSummary.renamed (ρ : String → String) (x : RunSummary) : RunSummary :=
  { x with id := ρ x.id, recordedAt := 0 }

/-- The error about the renamed identifier. -/
def RunNotFound.renamed (ρ : String → String) (e : RunNotFound) : RunNotFound := ⟨ρ e.id⟩

namespace RunStore

/-- The store with its runs renamed. -/
def renamed (ρ : String → String) (s : RunStore) : RunStore := ⟨s.runs.map (RunRecord.renamed ρ)⟩

/-- The action on the renamed identifier, with its time left out. -/
def Action.renamed (ρ : String → String) : Action → Action
  | .trace id _ q => .trace (ρ id) 0 q
  | .get id => .get (ρ id)
  | .remove id => .remove (ρ id)
  | .list => .list
  | .latest document => .latest document
  | .summary id => .summary (ρ id)
  | .issuesAt id line => .issuesAt (ρ id) line
  | .size => .size

/-- The answer with every identifier renamed and all times left out. -/
def Answer.renamed (ρ : String → String) : Answer → Answer
  | .traced answer => .traced (answer.map (RunRecord.renamed ρ))
  | .found answer => .found ((answer.map (RunRecord.renamed ρ)).mapError (RunNotFound.renamed ρ))
  | .removed answer => .removed (answer.mapError (RunNotFound.renamed ρ))
  | .listed summaries => .listed (summaries.map (RunSummary.renamed ρ))
  | .latest r => .latest (r.map (RunRecord.renamed ρ))
  | .summarized answer =>
    .summarized ((answer.map (RunSummary.renamed ρ)).mapError (RunNotFound.renamed ρ))
  | .located answer => .located (answer.mapError (RunNotFound.renamed ρ))
  | .counted n => .counted n

/-- The answers to the actions. -/
def answers (t : Tracer) (s : RunStore) (as : List Action) : List Answer :=
  (s.history t as).map Prod.snd

section

variable {ρ : String → String} {t : Tracer} {s : RunStore}

/-! ## Renamed steps -/

/-- A renaming that confuses no two identifiers keeps them equal or different. -/
theorem beq_renamed (hρ : Function.Injective ρ) (a b : String) : (ρ a == ρ b) = (a == b) := by
  rw [Bool.eq_iff_iff, beq_iff_eq, beq_iff_eq]
  exact hρ.eq_iff

/-- The run that is found under a renamed identifier is the renamed one. -/
theorem get_renamed (hρ : Function.Injective ρ) (id : String) :
    (s.renamed ρ).get (ρ id) =
      ((s.get id).map (RunRecord.renamed ρ)).mapError (RunNotFound.renamed ρ) := by
  have hfind : (s.renamed ρ).runs.find? (fun r => r.id == ρ id) =
      (s.runs.find? fun r => r.id == id).map (RunRecord.renamed ρ) := by
    unfold renamed
    rw [List.find?_map]
    congr 2
    funext r
    exact beq_renamed hρ r.id id
  unfold get
  rw [hfind]
  cases s.runs.find? fun r => r.id == id with
  | none => rfl
  | some r => rfl

/-- Recording a renamed run is recording the run and renaming. -/
theorem record_renamed (hρ : Function.Injective ρ) (r : RunRecord) :
    (s.renamed ρ).record (r.renamed ρ) = (s.record r).renamed ρ := by
  have hsame : ∀ q : RunRecord, ((q.renamed ρ).id == (r.renamed ρ).id) = (q.id == r.id) :=
    fun q => beq_renamed hρ q.id r.id
  have hany : ((s.renamed ρ).runs.any fun q => q.id == (r.renamed ρ).id) =
      s.runs.any fun q => q.id == r.id := by
    unfold renamed
    rw [List.any_map]
    congr 1
    funext q
    exact hsame q
  unfold record
  rw [hany]
  by_cases h : (s.runs.any fun q => q.id == r.id) = true
  · rw [if_pos h, if_pos h]
    unfold renamed
    rw [List.map_map, List.map_map, RunStore.mk.injEq]
    refine List.map_congr_left fun q _ => ?_
    rw [Function.comp_apply, Function.comp_apply, hsame]
    split <;> rfl
  · rw [if_neg h, if_neg h]
    unfold renamed
    rw [List.map_append]
    rfl

/-- Removing renamed runs is removing the runs and renaming. -/
theorem filter_renamed (hρ : Function.Injective ρ) (id : String) :
    ((s.renamed ρ).runs.filter fun r => r.id != ρ id) =
      (s.runs.filter fun r => r.id != id).map (RunRecord.renamed ρ) := by
  unfold renamed
  rw [List.filter_map]
  congr 2
  funext r
  exact congrArg not (beq_renamed hρ r.id id)

/-- The identifiers in use are the renamed ones. -/
theorem mem_ids_renamed (hρ : Function.Injective ρ) {id : String} :
    ρ id ∈ (s.renamed ρ).ids ↔ id ∈ s.ids := by
  have hids : (s.renamed ρ).ids = s.ids.map ρ := by
    unfold ids renamed
    rw [List.map_map, List.map_map]
    rfl
  rw [hids]
  exact List.mem_map_of_injective hρ

/-- A step under other names answers the same under these names, and leaves the same store. -/
theorem step_renamed (t : Tracer) (s : RunStore) (hρ : Function.Injective ρ) (a : Action) :
    (s.renamed ρ).step t (a.renamed ρ) =
      ((s.step t a).1.renamed ρ, (s.step t a).2.renamed ρ) := by
  cases a with
  | trace id now q =>
    show (s.renamed ρ).step t (.trace (ρ id) 0 q) = _
    rw [step_trace, step_trace]
    cases t.run q.raw q.reports q.program with
    | ok result =>
      exact congrArg (Prod.mk _) (record_renamed hρ (⟨id, q.document, result, now⟩ : RunRecord))
    | error e => rfl
  | get id => exact congrArg (fun answer => (Answer.found answer, s.renamed ρ)) (get_renamed hρ id)
  | remove id =>
    show (s.renamed ρ).step t (.remove (ρ id)) = _
    rw [step_remove, step_remove]
    by_cases h : id ∈ s.ids
    · rw [if_pos h, if_pos ((mem_ids_renamed hρ).mpr h), filter_renamed hρ]
      rfl
    · rw [if_neg h, if_neg ((mem_ids_renamed hρ).not.mpr h)]
      rfl
  | list =>
    have hlist : (s.renamed ρ).summaries = s.summaries.map (RunSummary.renamed ρ) := by
      unfold summaries renamed
      rw [List.map_map, List.map_map]
      rfl
    exact congrArg (fun xs => (Answer.listed xs, s.renamed ρ)) hlist
  | latest document =>
    have hlatest : (s.renamed ρ).latest? document =
        (s.latest? document).map (RunRecord.renamed ρ) := by
      unfold latest? renamed
      rw [← List.map_reverse, List.find?_map]
      rfl
    exact congrArg (fun r => (Answer.latest r, s.renamed ρ)) hlatest
  | summary id =>
    have hsummary : ((s.renamed ρ).get (ρ id)).map RunRecord.summary =
        (((s.get id).map RunRecord.summary).map (RunSummary.renamed ρ)).mapError
          (RunNotFound.renamed ρ) := by
      rw [get_renamed hρ]
      cases s.get id with
      | ok r => rfl
      | error e => rfl
    exact congrArg (fun answer => (Answer.summarized answer, s.renamed ρ)) hsummary
  | issuesAt id line =>
    have hissues : (((s.renamed ρ).get (ρ id)).map fun r => r.issuesAt line) =
        ((s.get id).map fun r => r.issuesAt line).mapError (RunNotFound.renamed ρ) := by
      rw [get_renamed hρ]
      cases s.get id with
      | ok r => rfl
      | error e => rfl
    exact congrArg (fun answer => (Answer.located answer, s.renamed ρ)) hissues
  | size =>
    have hsize : (s.renamed ρ).size = s.size := List.length_map _
    exact congrArg (fun n => (Answer.counted n, s.renamed ρ)) hsize

/-- Actions under other names are answered under these names. -/
theorem answers_renamed (hρ : Function.Injective ρ) (as : List Action) :
    (s.renamed ρ).answers t (as.map (Action.renamed ρ)) =
      (s.answers t as).map (Answer.renamed ρ) := by
  unfold answers
  induction as generalizing s with
  | nil => rfl
  | cons a as ih =>
    have hstep := step_renamed t s hρ a
    have hnext : (s.renamed ρ).next t (a.renamed ρ) = (s.next t a).renamed ρ :=
      congrArg Prod.snd hstep
    rw [List.map_cons, history, history, List.map_cons, List.map_cons, List.map_cons, hnext, ih,
      hstep]

/-- The same actions under other names and at other times are answered alike on empty stores. -/
theorem answers_of_renamed (t : Tracer) (hρ : Function.Injective ρ) {as bs : List Action}
    (h : bs.map (Action.renamed id) = as.map (Action.renamed ρ)) :
    (empty.answers t bs).map (Answer.renamed id) = (empty.answers t as).map (Answer.renamed ρ) := by
  have hempty : ∀ σ : String → String, empty.renamed σ = empty := fun σ => rfl
  calc (empty.answers t bs).map (Answer.renamed id)
      = (empty.renamed id).answers t (bs.map (Action.renamed id)) :=
        (answers_renamed Function.injective_id bs).symm
    _ = (empty.renamed ρ).answers t (as.map (Action.renamed ρ)) := by rw [h, hempty, hempty]
    _ = (empty.answers t as).map (Answer.renamed ρ) := answers_renamed hρ as

end

/-! ## Renamings -/

/-- The identifiers of two rows repeat themselves in the same places. -/
def RepeatAlike (ids ids' : List String) : Prop :=
  ids.length = ids'.length ∧ ∀ p ∈ ids.zip ids', ∀ q ∈ ids.zip ids', p.1 = q.1 ↔ p.2 = q.2

/-- A renaming takes each pair of identifiers from the first to the second, as long as the pairs do
not conflict. -/
theorem exists_perm_pairs {ps : List (String × String)}
    (h : ∀ p ∈ ps, ∀ q ∈ ps, p.1 = q.1 ↔ p.2 = q.2) :
    ∃ ρ : Equiv.Perm String, ∀ p ∈ ps, ρ p.1 = p.2 := by
  induction ps with
  | nil => exact ⟨Equiv.refl String, fun p hp => absurd hp List.not_mem_nil⟩
  | cons p ps ih =>
    obtain ⟨ρ, hρ⟩ := ih fun a ha b hb =>
      h a (List.mem_cons_of_mem p ha) b (List.mem_cons_of_mem p hb)
    -- What `ρ` makes of the first identifier is exchanged for the name it is to have.
    refine ⟨ρ.trans (Equiv.swap (ρ p.1) p.2), fun q hq => ?_⟩
    rw [Equiv.trans_apply]
    rcases List.mem_cons.mp hq with rfl | hq
    · exact Equiv.swap_apply_left (ρ q.1) q.2
    · have hpair := h p List.mem_cons_self q (List.mem_cons_of_mem p hq)
      by_cases hsame : p.1 = q.1
      · rw [← hsame, Equiv.swap_apply_left]
        exact hpair.mp hsame
      · have hfirst : q.2 ≠ ρ p.1 := by
          rw [← hρ q hq]
          exact fun hmeet => hsame (ρ.injective hmeet).symm
        have hsecond : q.2 ≠ p.2 := fun hmeet => hsame (hpair.mpr hmeet.symm)
        rw [hρ q hq]
        exact Equiv.swap_apply_of_ne_of_ne hfirst hsecond

/-- Two rows of identifiers that repeat themselves in the same places differ by a renaming. -/
theorem exists_renaming {ids ids' : List String} (h : RepeatAlike ids ids') :
    ∃ ρ : Equiv.Perm String, ids.map ρ = ids' := by
  obtain ⟨ρ, hρ⟩ := exists_perm_pairs h.2
  refine ⟨ρ, ?_⟩
  calc ids.map ρ = ((ids.zip ids').map Prod.fst).map ρ := by rw [List.map_fst_zip (Nat.le_of_eq h.1)]
    _ = (ids.zip ids').map Prod.snd := by
        rw [List.map_map]
        exact List.map_congr_left hρ
    _ = ids' := List.map_snd_zip (Nat.le_of_eq h.1.symm)

end RunStore

end StylesheetTrace
