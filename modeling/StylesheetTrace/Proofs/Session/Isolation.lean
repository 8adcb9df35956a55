import StylesheetTrace.Proofs.RunStore.Renaming
import StylesheetTrace.Proofs.Session.Liveness

/-!
# What a session sees of the others

Clients work in the stores of their sessions, while sessions are opened and closed around them. A
session that is kept in use sees nothing of this: its steps are answered as they would be on a store
of its own, from its creation on (`seen_of_found`). The identifiers of runs and the times come from
one supply for all sessions, so that a session alone would be given others; but for these the
answers are the same (`seen_alike`).

The invariant of a run is that the session is found with the store that its own steps have made, and
that it was last used by the last of these steps.
-/

namespace StylesheetTrace.Sessions

open StylesheetTrace.RunStore (Answer RepeatAlike)

/-! ## Calls of many clients -/

/-- What a client or the cleanup asks for: an action on the sessions, or a step in the store of a
session, which is looked up for it. -/
inductive Deed where
  | manage (a : Action)
  | within (id : String) (a : RunStore.Action)

/-- A deed at a time. -/
structure Call where
  /-- When it is done. -/
  time : Int
  /-- What is done. -/
  deed : Deed

/-- What a call does with the sessions. -/
def Call.event (t : Tracer) (c : Call) : Event :=
  match c.deed with
  | .manage a => ⟨c.time, a⟩
  | .within id a => ⟨c.time, .use id fun store => store.next t a⟩

/-- The step that a call makes in the store of the session `id`. -/
def Call.own? (id : String) (c : Call) : Option RunStore.Action :=
  match c.deed with
  | .manage _ => none
  | .within k a => if k = id then some a else none

/-- What a session is answered to a call in its store. -/
def answer? (t : Tracer) (id : String) (s : Sessions) (c : Call) :
    Option (Except SessionError Answer) :=
  (c.own? id).map fun a => (s.lookup id c.time).1.map fun x => (x.store.step t a).1

/-- What a session is answered to the calls in its store, in their order. -/
def seen (t : Tracer) (id : String) (s : Sessions) : List Call → List (Except SessionError Answer)
  | [] => []
  | c :: cs => (answer? t id s c).toList ++ seen t id (s.next (c.event t)) cs

/-- The steps in the store of a session. -/
def ownSteps (id : String) (cs : List Call) : List RunStore.Action := cs.filterMap (Call.own? id)

/-- The times at which a session is used for a step. -/
def ownTimes (id : String) (cs : List Call) : List Int :=
  (cs.filter fun c => (c.own? id).isSome).map Call.time

/-- The call is a step in the store of some session, or does not concern the session `id` by
creating, closing or using it; it may list, count or purge the sessions. -/
def Call.Spares (id : String) (c : Call) : Prop :=
  match c.deed with
  | .within _ _ => True
  | .manage (.create k _) | .manage (.use k _) | .manage (.close k) => k ≠ id
  | .manage (.useDefault _) => defaultId ≠ id
  | .manage .list | .manage .count | .manage .purge => True

/-- The identifiers of the runs that were recorded, as the answers tell them. -/
def handedOut (answers : List (Except SessionError Answer)) : List String :=
  answers.filterMap fun
    | .ok (.traced (.ok r)) => some r.id
    | _ => none

section

variable {t : Tracer} {id : String} {s : Sessions}

/-- The steps of a session go on from one call to the next. -/
theorem ownSteps_cons (id : String) (c : Call) (cs : List Call) :
    ownSteps id (c :: cs) = (c.own? id).toList ++ ownSteps id cs := by
  unfold ownSteps
  rw [List.filterMap_cons]
  cases c.own? id <;> rfl

/-- The times of a session go on from one call to the next. -/
theorem ownTimes_cons (id : String) (c : Call) (cs : List Call) :
    ownTimes id (c :: cs) =
      if (c.own? id).isSome then c.time :: ownTimes id cs else ownTimes id cs := by
  unfold ownTimes
  rw [List.filter_cons]
  split <;> rfl

/-- A call with a step of the session is a use of it. -/
theorem event_of_own? {c : Call} {a : RunStore.Action} (h : c.own? id = some a) :
    c.event t = ⟨c.time, .use id fun store => store.next t a⟩ := by
  obtain ⟨time, deed⟩ := c
  cases deed with
  | manage b => exact absurd h.symm (Option.some_ne_none a)
  | within k b =>
    have hown : (if k = id then some b else none) = some a := h
    by_cases hk : k = id
    · rw [if_pos hk] at hown
      rw [← Option.some.inj hown, ← hk]
      rfl
    · rw [if_neg hk] at hown
      exact absurd hown.symm (Option.some_ne_none a)

/-- A session without steps of its own sees nothing. -/
theorem seen_of_no_step {cs : List Call} (h : ∀ c ∈ cs, c.own? id = none) : seen t id s cs = [] := by
  induction cs generalizing s with
  | nil => rfl
  | cons c cs ih =>
    rw [seen, answer?, h c List.mem_cons_self]
    exact ih fun d hd => h d (List.mem_cons_of_mem c hd)

/-- A session that is used again has not expired before. -/
theorem recent_of_own {u : Int} {cs : List Call} {ttl now : Int}
    (hlater : ∀ time ∈ cs.map Call.time, now ≤ time)
    (hlive : (u :: ownTimes id cs).IsChain fun a b => b - a ≤ ttl) {d : Call} (hd : d ∈ cs)
    (hown : d.own? id ≠ none) : now - u ≤ ttl := by
  have hmem : d.time ∈ ownTimes id cs :=
    List.mem_map_of_mem (List.mem_filter.mpr ⟨hd, Option.isSome_iff_ne_none.mpr hown⟩)
  cases htimes : ownTimes id cs with
  | nil =>
    rw [htimes] at hmem
    exact absurd hmem List.not_mem_nil
  | cons v vs =>
    have hv : v ∈ cs.map Call.time := by
      have hhead : v ∈ ownTimes id cs := htimes ▸ List.mem_cons_self
      exact (List.filter_sublist.map Call.time).subset hhead
    have hnow : now ≤ v := hlater v hv
    rw [htimes, List.isChain_cons_cons] at hlive
    have hgap : v - u ≤ ttl := hlive.1
    omega

/-! ## The invariant -/

/-- A call that does not concern a session leaves it as it was, unless it is purged: then it has
expired. -/
theorem find?_of_spares (hs : s.Distinct) {x : Session} (hx : s.find? id = some x) {c : Call}
    (hspares : c.Spares id) (hother : c.own? id = none)
    (hlive : c.time - x.lastUsed ≤ s.timeToLive) : (s.next (c.event t)).find? id = some x := by
  have hrecent : s.live? c.time id = some x := live?_eq_some.mpr ⟨hx, hlive⟩
  obtain ⟨time, deed⟩ := c
  unfold Sessions.next
  rw [find?_step hs]
  cases deed with
  | within k a =>
    have hk : ¬ k = id := by
      rintro rfl
      simp [Call.own?] at hother
    exact (if_neg (Ne.symm hk)).trans hx
  | manage a =>
    cases a with
    | create k metadata => exact (if_neg (Ne.symm hspares)).trans hx
    | use k work => exact (if_neg (Ne.symm hspares)).trans hx
    | close k => exact (if_neg (Ne.symm hspares)).trans hx
    | useDefault work => exact (if_neg (Ne.symm hspares)).trans hx
    | list => exact hx
    | count => exact hx
    | purge => exact hrecent

/-- A session that is found, and used again before it expires each time, is answered as its store
answers its own steps. -/
theorem seen_of_found (hs : s.Distinct) {x : Session} (hx : s.find? id = some x) {cs : List Call}
    (hclock : (cs.map Call.time).Pairwise (· ≤ ·)) (hspares : ∀ c ∈ cs, c.Spares id)
    (hlive : (x.lastUsed :: ownTimes id cs).IsChain fun a b => b - a ≤ s.timeToLive) :
    seen t id s cs = (x.store.answers t (ownSteps id cs)).map .ok := by
  induction cs generalizing s x with
  | nil => rfl
  | cons c cs ih =>
    obtain ⟨hfirst, hclock⟩ := List.pairwise_cons.mp hclock
    have hrest : ∀ d ∈ cs, d.Spares id := fun d hd => hspares d (List.mem_cons_of_mem c hd)
    have hdistinct : (s.next (c.event t)).Distinct := hs.step _ _
    have httl : (s.next (c.event t)).timeToLive = s.timeToLive := timeToLive_step _ _ _
    rw [seen, ownSteps_cons]
    rw [ownTimes_cons] at hlive
    cases hown : c.own? id with
    | some a =>
      -- A step of its own: the session is live, and its store makes the step.
      rw [hown, Option.isSome_some, if_pos rfl, List.isChain_cons_cons] at hlive
      obtain ⟨hgap, hlive⟩ := hlive
      have hrecent : s.live? c.time id = some x := live?_eq_some.mpr ⟨hx, hgap⟩
      have hanswer : answer? t id s c = some (.ok (x.store.step t a).1) := by
        rw [answer?, hown, lookup_of_live hrecent]
        rfl
      have hfound : (s.next (c.event t)).find? id =
          some (used x c.time fun store => store.next t a) := by
        unfold Sessions.next
        rw [event_of_own? hown, find?_step hs]
        show (if id = id then _ else _) = _
        rw [if_pos rfl, hrecent]
        rfl
      rw [hanswer, ih hdistinct hfound hclock hrest (httl ▸ hlive)]
      rfl
    | none =>
      rw [hown, Option.isSome_none, if_neg Bool.false_ne_true] at hlive
      rw [answer?, hown]
      show seen t id (s.next (c.event t)) cs = (x.store.answers t (ownSteps id cs)).map .ok
      -- Where no step of its own follows, it makes no difference whether the session is purged.
      by_cases hend : ∀ d ∈ cs, d.own? id = none
      · have hnone : ownSteps id cs = [] := List.filterMap_eq_nil_iff.mpr hend
        rw [seen_of_no_step hend, hnone]
        rfl
      · obtain ⟨d, hd, hdown⟩ : ∃ d ∈ cs, d.own? id ≠ none := by
          by_contra hnot
          exact hend fun d hd => by_contra fun h => hnot ⟨d, hd, h⟩
        have hgap : c.time - x.lastUsed ≤ s.timeToLive := recent_of_own hfirst hlive hd hdown
        have hfound := find?_of_spares (t := t) hs hx (hspares c List.mem_cons_self) hown hgap
        exact ih hdistinct hfound hclock hrest (httl ▸ hlive)

end

/-! ## Isolation -/

/-- The sessions when, after the calls of `past`, the session `id` was just created. -/
def withCreated (t : Tracer) (ttl : Int) (past : List Call) (born : Int) (id : String)
    (metadata : List (String × String)) : Sessions :=
  ((after ttl (past.map (Call.event t))).create id born metadata).2

/-- A session that is created in a run, and from then on is neither closed nor left unused for
longer than the time to live, is answered to each of its steps. Whatever identifiers it would be
given alone, in place of those that it is handed out, there is a renaming such that its answers are
those that its own steps get alone, under the new names and at any times, on a store without runs.
What is done in other sessions, and which ones are opened, closed and purged, makes no difference.
-/
theorem seen_alike (t : Tracer) {ttl : Int} {id : String} {metadata : List (String × String)}
    {born : Int} {past future : List Call} {names : List String}
    (hclock : (future.map Call.time).Pairwise (· ≤ ·)) (hspares : ∀ c ∈ future, c.Spares id)
    (hlive : (born :: ownTimes id future).IsChain fun a b => b - a ≤ ttl)
    (hnames : RepeatAlike
      (handedOut (seen t id (withCreated t ttl past born id metadata) future)) names) :
    ∃ ρ : Equiv.Perm String,
      (handedOut (seen t id (withCreated t ttl past born id metadata) future)).map ρ = names ∧
      ∀ alone : List RunStore.Action,
        alone.map (RunStore.Action.renamed fun k => k) =
          (ownSteps id future).map (RunStore.Action.renamed ρ) →
        (seen t id (withCreated t ttl past born id metadata) future).map
            (Except.map (Answer.renamed ρ)) =
          (RunStore.empty.answers t alone).map fun a => .ok (a.renamed fun k => k) := by
  have hpast : (after ttl (past.map (Call.event t))).Distinct := distinct_after ttl _
  have hdistinct : (withCreated t ttl past born id metadata).Distinct :=
    hpast.step born (.create id metadata)
  have httl : (withCreated t ttl past born id metadata).timeToLive = ttl :=
    (timeToLive_step _ born (.create id metadata)).trans (timeToLive_after ttl _)
  have hfound : (withCreated t ttl past born id metadata).find? id =
      some (fresh id born metadata) :=
    (find?_step hpast born (.create id metadata) id).trans (if_pos rfl)
  -- The store of the session that was just created has no runs.
  have hseen : seen t id (withCreated t ttl past born id metadata) future =
      (RunStore.empty.answers t (ownSteps id future)).map .ok :=
    seen_of_found hdistinct hfound hclock hspares (httl.symm ▸ hlive)
  obtain ⟨ρ, hρ⟩ := RunStore.exists_renaming hnames
  refine ⟨ρ, hρ, fun alone halone => ?_⟩
  have hanswers := RunStore.answers_of_renamed t ρ.injective halone
  rw [hseen, List.map_map]
  calc (RunStore.empty.answers t (ownSteps id future)).map
        (Except.map (Answer.renamed ρ) ∘ Except.ok)
      = ((RunStore.empty.answers t (ownSteps id future)).map (Answer.renamed ρ)).map .ok := by
        rw [List.map_map]
        rfl
    _ = ((RunStore.empty.answers t alone).map (Answer.renamed fun k => k)).map .ok :=
        congrArg (List.map Except.ok) hanswers.symm
    _ = (RunStore.empty.answers t alone).map fun a => .ok (a.renamed fun k => k) := by
        rw [List.map_map]
        rfl

/-- A run of which nothing is known but that it is of the document `d`. -/
def sampleRun : RunRequest := ⟨"d", "", [], none⟩

/-- After the creation of a session `a`, steps of it between steps of a session `b`, which is opened
and closed meanwhile; at last `a` asks for the run of `b`, and for the number of its own. -/
def sampleCalls : List Call :=
  [⟨1, .within "a" (.trace "1" 1 sampleRun)⟩, ⟨2, .manage (.create "b" [])⟩,
    ⟨3, .within "b" (.trace "2" 3 sampleRun)⟩, ⟨4, .within "a" (.trace "3" 4 sampleRun)⟩,
    ⟨5, .manage (.close "b")⟩, ⟨6, .within "a" (.get "2")⟩, ⟨7, .within "a" .size⟩]

/-- The session `a` is answered as it would be alone, where its runs are called `1` and `2`: the run
of the other session is not found under any name. -/
theorem seen_alike_sample :
    ∃ ρ : Equiv.Perm String, ρ "1" = "1" ∧ ρ "3" = "2" ∧
      (seen ⟨"TRACE", 100, RuleTable.empty⟩ "a"
          (withCreated ⟨"TRACE", 100, RuleTable.empty⟩ 10 [] 0 "a" []) sampleCalls).map
          (Except.map (Answer.renamed ρ)) =
        (RunStore.empty.answers ⟨"TRACE", 100, RuleTable.empty⟩
          [.trace "1" 0 sampleRun, .trace "2" 0 sampleRun, .get (ρ "2"), .size]).map
          fun a => .ok (a.renamed fun k => k) := by
  have hspares : ∀ c ∈ sampleCalls, c.Spares "a" := by
    unfold sampleCalls
    simp [Call.Spares]
  have hhanded : handedOut (seen ⟨"TRACE", 100, RuleTable.empty⟩ "a"
      (withCreated ⟨"TRACE", 100, RuleTable.empty⟩ 10 [] 0 "a" []) sampleCalls) = ["1", "3"] := by
    rfl
  have hnames : RepeatAlike ["1", "3"] ["1", "2"] := by
    unfold RepeatAlike
    decide
  obtain ⟨ρ, hρ, halike⟩ := @seen_alike ⟨"TRACE", 100, RuleTable.empty⟩ 10 "a" [] 0 [] sampleCalls
    ["1", "2"] (by decide) hspares (by decide) (hhanded.symm ▸ hnames)
  rw [hhanded] at hρ
  obtain ⟨hfirst, hsecond, -⟩ : ρ "1" = "1" ∧ ρ "3" = "2" ∧ True := by simpa using hρ
  refine ⟨ρ, hfirst, hsecond, halike _ ?_⟩
  show _ = [RunStore.Action.trace (ρ "1") 0 sampleRun, .trace (ρ "3") 0 sampleRun, .get (ρ "2"),
    .size]
  rw [hfirst, hsecond]
  rfl

end StylesheetTrace.Sessions
