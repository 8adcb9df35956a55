import Mathlib.Data.Multiset.Basic
import StylesheetTrace.Proofs.Session.Liveness

/-!
# What purges change

A purge drops the sessions that have expired, and almost every action treats an expired session as
if it were dropped: then it makes no difference whether a purge came before. Two actions look at a
session without asking whether it has expired. Closing succeeds on an expired session that is still
stored, and the default session is opened again with the runs it had. A run in which neither meets
an expired session (`Prompt`) shows the same whatever purges are put into it; in any other run one
purge is enough to show a difference (`views_withPurges_iff`).

The proof is a simulation. The sessions of the run with more purges are stored in the other run as
well, with the same last use and the same store, and what is stored only there has expired
(`Agree`). An event keeps this (`Agree.next`) and shows the same in both runs (`Agree.view`), and a
purge on one side keeps it too (`Agree.purge`).
-/

namespace StylesheetTrace.Sessions

/-! ## What a run shows -/

/-- What an answer shows of success and of the runs in the stores. -/
inductive View where
  | created
  | found (runs : Option (List RunRecord))
  | closed (done : Bool)
  | listed (runs : Multiset (String × List RunRecord))
  | counted (n : Nat)
  | opened (runs : List RunRecord)

/-- What a list of sessions shows of one of them. -/
def shown (x : Session) : String × List RunRecord := (x.id, x.store.runs)

/-- What an answer shows; a purge shows nothing. -/
def Outcome.view? : Outcome → Option View
  | .created _ => some .created
  | .found (.ok x) => some (.found (some x.store.runs))
  | .found (.error _) => some (.found none)
  | .closed answer => some (.closed answer.isOk)
  | .listed xs => some (.listed (xs.map shown))
  | .counted n => some (.counted n)
  | .opened x => some (.opened x.store.runs)
  | .purged => none

/-- What a run shows, event by event. -/
def views (s : Sessions) (es : List Event) : List View :=
  (s.history es).filterMap fun p => p.2.view?

/-- A run shows what its first event shows and what is shown after it. -/
theorem views_cons (s : Sessions) (e : Event) (es : List Event) :
    s.views (e :: es) = (s.step e.time e.action).1.view?.toList ++ (s.next e).views es := by
  unfold views
  rw [history, List.filterMap_cons]
  cases (s.step e.time e.action).1.view? <;> rfl

/-- The second run is the first with purges put in. -/
inductive WithPurges : List Event → List Event → Prop
  | nil : WithPurges [] []
  | keep (e : Event) {es es' : List Event} : WithPurges es es' → WithPurges (e :: es) (e :: es')
  | purge (t : Int) {es es' : List Event} : WithPurges es es' → WithPurges es (⟨t, .purge⟩ :: es')

/-- No purge has to be put into a run. -/
theorem WithPurges.refl (es : List Event) : WithPurges es es := by
  induction es with
  | nil => exact .nil
  | cons e es ih => exact .keep e ih

/-- The event does not close an expired session that is stored, and does not use a default session
that has expired and has runs. -/
def Timely (s : Sessions) (e : Event) : Prop :=
  match e.action with
  | .close id => ∀ x ∈ s.find? id, s.hasExpired e.time x = false
  | .useDefault _ => ∀ x ∈ s.find? defaultId, s.hasExpired e.time x = true → x.store.runs = []
  | _ => True

/-- Every event of the run is timely. -/
def Prompt (s : Sessions) : List Event → Prop
  | [] => True
  | e :: es => s.Timely e ∧ Prompt (s.next e) es

/-! ## Sessions that agree -/

/-- What of a session bears on later answers. -/
def kept (x : Session) : Int × RunStore := (x.lastUsed, x.store)

/-- The second sessions are the first, but for some that have expired. -/
structure Agree (now : Int) (s s' : Sessions) : Prop where
  /-- Sessions expire after the same time. -/
  timeToLive : s'.timeToLive = s.timeToLive
  /-- No two of the first sessions have one identifier. -/
  distinct : s.Distinct
  /-- No two of the second sessions have one identifier. -/
  distinct' : s'.Distinct
  /-- A session that is missing in the second has expired, and any other is kept. -/
  found : ∀ id, (s'.find? id).map kept = (s.find? id).map kept ∨
    s'.find? id = none ∧ s.live? now id = none

section

variable {s s' : Sessions} {now : Int}

/-- What is live shows in what is found. -/
theorem map_kept_live? (s : Sessions) (t : Int) (id : String) :
    (s.live? t id).map kept = ((s.find? id).map kept).filter fun p => t - p.1 ≤ s.timeToLive :=
  map_filter_hasExpired s t kept Prod.fst (fun _ => rfl) (s.find? id)

/-- A session that has expired is not live. -/
theorem live?_eq_none_of_expired {id : String} {x : Session} (hx : s.find? id = some x)
    (hexpired : s.hasExpired now x = true) : s.live? now id = none := by
  simp [live?, hx, hexpired]

/-- What is expired stays so. -/
theorem live?_eq_none_of_le {t : Int} {id : String} (h : now ≤ t) (hnone : s.live? now id = none) :
    s.live? t id = none := by
  rw [← live?_filter h, hnone]
  rfl

/-- Sessions that agree are live at the same times. -/
theorem Agree.live (h : Agree now s s') {t : Int} (hnow : now ≤ t) (id : String) :
    (s'.live? t id).map kept = (s.live? t id).map kept := by
  rcases h.found id with hfound | ⟨hfound, hlive⟩
  · rw [map_kept_live?, map_kept_live?, hfound, h.timeToLive]
  · rw [live?_eq_none_of_le hnow hlive, live?, hfound]
    rfl

/-- Sessions that agree do so later. -/
theorem Agree.mono (h : Agree now s s') {t : Int} (hnow : now ≤ t) : Agree t s s' where
  timeToLive := h.timeToLive
  distinct := h.distinct
  distinct' := h.distinct'
  found id := (h.found id).imp_right fun hgone => ⟨hgone.1, live?_eq_none_of_le hnow hgone.2⟩

/-- A purge of the second sessions leaves them in agreement. -/
theorem Agree.purge (h : Agree now s s') {t : Int} (hnow : now ≤ t) : Agree t s (s'.purge t) where
  timeToLive := h.timeToLive
  distinct := h.distinct
  distinct' := h.distinct'.step t .purge
  found id := by
    rw [find?_purge h.distinct', h.live hnow]
    cases hlive : s.live? t id with
    | none =>
      refine Or.inr ⟨?_, rfl⟩
      have hmap := h.live hnow id
      rwa [hlive, Option.map_none, Option.map_eq_none_iff] at hmap
    | some x =>
      rw [(live?_eq_some.mp hlive).1]
      exact Or.inl rfl

/-- Sessions agree with themselves. -/
theorem Agree.refl (hs : s.Distinct) : Agree now s s where
  timeToLive := rfl
  distinct := hs
  distinct' := hs
  found _ := Or.inl rfl

/-- The default session is used with the same store in both, where its use is timely. -/
theorem Agree.default_store (h : Agree now s s')
    (htimely : ∀ x ∈ s.find? defaultId, s.hasExpired now x = true → x.store.runs = []) :
    ((s'.find? defaultId).getD (fresh defaultId now [])).store =
      ((s.find? defaultId).getD (fresh defaultId now [])).store := by
  rcases h.found defaultId with hfound | ⟨hgone, hlive⟩
  · have hstore := congrArg (fun o => (o.map Prod.snd).getD RunStore.empty) hfound
    cases hx : s.find? defaultId with
    | none =>
      rw [hx, Option.map_none, Option.map_eq_none_iff] at hfound
      rw [hfound]
    | some x =>
      rw [hx] at hfound
      obtain ⟨y, hy, hkept⟩ := Option.map_eq_some_iff.mp hfound
      rw [hy]
      exact congrArg Prod.snd hkept
  · -- The session that is stored only on the one side has expired, and without any run.
    rw [hgone]
    cases hx : s.find? defaultId with
    | none => rfl
    | some x =>
      have hexpired : s.hasExpired now x = true := by
        simpa [live?, hx] using hlive
      have hruns := htimely x hx hexpired
      obtain ⟨_, ⟨runs⟩, _, _, _⟩ := x
      exact congrArg RunStore.mk hruns.symm

/-- After an event the sessions still agree. -/
theorem Agree.next (h : Agree now s s') {e : Event} (hnow : now ≤ e.time) (htimely : s.Timely e) :
    Agree e.time (s.next e) (s'.next e) where
  timeToLive := by
    rw [Sessions.next, Sessions.next, timeToLive_step, timeToLive_step, h.timeToLive]
  distinct := h.distinct.step e.time e.action
  distinct' := h.distinct'.step e.time e.action
  found id := by
    obtain ⟨time, action⟩ := e
    -- Where the action is about another session, nothing is different.
    have hsame := (h.mono hnow).found id
    rw [Sessions.next, Sessions.next, find?_step h.distinct, find?_step h.distinct',
      live?_step h.distinct]
    unfold foundAfter
    cases action with
    | create k metadata =>
      dsimp only
      by_cases hk : id = k
      · rw [if_pos hk, if_pos hk]
        exact Or.inl rfl
      · rw [if_neg hk, if_neg hk]
        exact hsame
    | use k work =>
      dsimp only
      by_cases hk : id = k
      · rw [if_pos hk, if_pos hk]
        refine Or.inl ?_
        have hwork := congrArg (Option.map fun p => (time, work p.2)) (h.live hnow k)
        rw [Option.map_map, Option.map_map] at hwork ⊢
        exact hwork
      · rw [if_neg hk, if_neg hk]
        exact hsame
    | close k =>
      dsimp only
      by_cases hk : id = k
      · rw [if_pos hk, if_pos hk]
        exact Or.inl rfl
      · rw [if_neg hk, if_neg hk]
        exact hsame
    | useDefault work =>
      dsimp only
      by_cases hk : id = defaultId
      · rw [if_pos hk, if_pos hk]
        have hstore := (h.mono hnow).default_store htimely
        exact Or.inl (congrArg (fun store => some (time, work store)) hstore)
      · rw [if_neg hk, if_neg hk]
        exact hsame
    | purge =>
      refine Or.inl ?_
      exact h.live hnow id
    | list => exact hsame
    | count => exact hsame

/-! ## What an event shows -/

/-- A use shows the runs of the session if it is live. -/
theorem view?_use (s : Sessions) (now : Int) (id : String) (work : RunStore → RunStore) :
    (s.step now (.use id work)).1.view? =
      some (.found ((s.live? now id).map fun x => x.store.runs)) := by
  cases h : s.live? now id with
  | none =>
    obtain ⟨e, he⟩ := step_use_of_not_live h work
    rw [he]
    rfl
  | some x =>
    rw [step_use_of_live h]
    rfl

/-- Closing shows whether the session is stored. -/
theorem view?_close (s : Sessions) (now : Int) (id : String) :
    (s.step now (.close id)).1.view? = some (.closed (s.find? id).isSome) := by
  obtain ⟨answer, hstep, hanswer⟩ := step_close s now id
  rw [hstep, ← hanswer]
  rfl

/-- A use of the default session shows the runs it has. -/
theorem view?_useDefault (s : Sessions) (now : Int) (work : RunStore → RunStore) :
    (s.step now (.useDefault work)).1.view? =
      some (.opened ((s.find? defaultId).getD (fresh defaultId now [])).store.runs) := by
  change some (View.opened (s.openDefault now).1.store.runs) = _
  rw [(openDefault_eq s now).1]

/-- What is shown of the live sessions. -/
theorem mem_shown_live (hs : s.Distinct) {p : String × List RunRecord} :
    p ∈ (s.live now).map shown ↔
      p.1 ≠ defaultId ∧ (s.live? now p.1).map (fun x => x.store.runs) = some p.2 := by
  simp only [List.mem_map, live, List.mem_filter, Option.map_eq_some_iff, live?,
    Option.filter_eq_some_iff, find?_eq_some hs, Bool.and_eq_true, bne_iff_ne]
  constructor
  · rintro ⟨x, ⟨hx, hdefault, hlive⟩, rfl⟩
    exact ⟨hdefault, x, ⟨⟨hx, rfl⟩, hlive⟩, rfl⟩
  · rintro ⟨hdefault, x, ⟨⟨hx, hid⟩, hlive⟩, hruns⟩
    exact ⟨x, ⟨hx, hid ▸ hdefault, hlive⟩, Prod.ext hid hruns⟩

/-- No session is shown twice. -/
theorem nodup_shown_live (hs : s.Distinct) : ((s.live now).map shown).Nodup := by
  have hids : (((s.live now).map shown).map Prod.fst).Nodup := by
    rw [List.map_map]
    exact hs.sublist (List.filter_sublist.map _)
  exact hids.of_map

/-- Sessions that agree show the same runs of the live sessions. -/
theorem Agree.runs_live (h : Agree now s s') {t : Int} (hnow : now ≤ t) (id : String) :
    (s'.live? t id).map (fun x => x.store.runs) = (s.live? t id).map fun x => x.store.runs := by
  have hruns := congrArg (Option.map fun p => p.2.runs) (h.live hnow id)
  rw [Option.map_map, Option.map_map] at hruns
  exact hruns

/-- Sessions that agree are listed with the same runs. -/
theorem Agree.shown_live (h : Agree now s s') {t : Int} (hnow : now ≤ t) :
    ((s'.live t).map shown).Perm ((s.live t).map shown) := by
  rw [List.perm_ext_iff_of_nodup (nodup_shown_live h.distinct') (nodup_shown_live h.distinct)]
  intro p
  rw [mem_shown_live h.distinct', mem_shown_live h.distinct, h.runs_live hnow]

/-- As many sessions are counted where sessions agree. -/
theorem Agree.activeCount (h : Agree now s s') {t : Int} (hnow : now ≤ t) :
    s'.activeCount t = s.activeCount t := by
  have hlength := (h.shown_live hnow).length_eq
  rw [List.length_map, List.length_map] at hlength
  have hdefault : (s'.live? t defaultId).isSome = (s.live? t defaultId).isSome := by
    rw [← Option.isSome_map (f := kept), h.live hnow, Option.isSome_map]
  rw [activeCount_eq h.distinct', activeCount_eq h.distinct, hlength, any_recent_eq,
    any_recent_eq, hdefault]

/-- An event shows the same of sessions that agree. -/
theorem Agree.view (h : Agree now s s') {e : Event} (hnow : now ≤ e.time) (htimely : s.Timely e) :
    (s'.step e.time e.action).1.view? = (s.step e.time e.action).1.view? := by
  obtain ⟨time, action⟩ := e
  cases action with
  | create id metadata => rfl
  | use id work => rw [view?_use, view?_use, h.runs_live hnow]
  | close id =>
    rw [view?_close, view?_close]
    rcases (h.mono hnow).found id with hfound | ⟨hgone, hlive⟩
    · rw [← Option.isSome_map (f := kept), hfound, Option.isSome_map]
    · have hnone : s.find? id = none := by
        cases hx : s.find? id with
        | none => rfl
        | some x => simp [live?, hx, htimely x hx] at hlive
      rw [hgone, hnone]
  | list => exact congrArg (fun xs => some (View.listed xs)) (Quot.sound (h.shown_live hnow))
  | count => exact congrArg (fun n => some (View.counted n)) (h.activeCount hnow)
  | useDefault work =>
    rw [view?_useDefault, view?_useDefault, (h.mono hnow).default_store htimely]
  | purge => rfl

end

/-! ## Runs with purges put in -/

/-- A run that is prompt shows the same with purges put in. -/
theorem Agree.views {es es' : List Event} (hpurges : WithPurges es es') {now : Int}
    {s s' : Sessions} (h : Agree now s s') (hprompt : s.Prompt es) (hclock : Clocked es')
    (hstart : ∀ e ∈ es', now ≤ e.time) : s'.views es' = s.views es := by
  induction hpurges generalizing now s s' with
  | nil => rfl
  | keep e hpurges ih =>
    obtain ⟨hlater, hclock⟩ := List.pairwise_cons.mp hclock
    obtain ⟨htimely, hprompt⟩ := hprompt
    have hhead := hstart e List.mem_cons_self
    have htail := ih (h.next hhead htimely) hprompt hclock hlater
    have hview := h.view hhead htimely
    rw [views_cons, views_cons, htail, hview]
  | purge t hpurges ih =>
    obtain ⟨hlater, hclock⟩ := List.pairwise_cons.mp hclock
    exact ih (h.purge (hstart ⟨t, .purge⟩ List.mem_cons_self)) hprompt hclock hlater

/-- Where an event is not timely, a purge right before it shows. -/
theorem exists_view?_ne {s : Sessions} (hs : s.Distinct) {e : Event} (hlate : ¬ s.Timely e) :
    ∃ v w, ((s.purge e.time).step e.time e.action).1.view? = some v ∧
      (s.step e.time e.action).1.view? = some w ∧ v ≠ w := by
  obtain ⟨time, action⟩ := e
  cases action with
  | close id =>
    obtain ⟨x, hx, hexpired⟩ : ∃ x, s.find? id = some x ∧ s.hasExpired time x = true := by
      simpa [Timely] using hlate
    refine ⟨_, _, view?_close .., view?_close .., ?_⟩
    rw [find?_purge hs, live?_eq_none_of_expired hx hexpired, hx]
    exact fun heq => Bool.false_ne_true (View.closed.inj heq)
  | useDefault work =>
    obtain ⟨x, hx, hexpired, hruns⟩ :
        ∃ x, s.find? defaultId = some x ∧ s.hasExpired time x = true ∧ x.store.runs ≠ [] := by
      simpa [Timely] using hlate
    refine ⟨_, _, view?_useDefault .., view?_useDefault .., ?_⟩
    rw [find?_purge hs, live?_eq_none_of_expired hx hexpired, hx]
    exact fun heq => hruns (View.opened.inj heq).symm
  | _ => exact absurd trivial hlate

/-- In a run that is not prompt, one purge shows. -/
theorem exists_views_ne {s : Sessions} (hs : s.Distinct) {es : List Event} (hclock : Clocked es)
    (hlate : ¬ s.Prompt es) :
    ∃ es', WithPurges es es' ∧ Clocked es' ∧ (∀ d ∈ es', ∃ e ∈ es, e.time = d.time) ∧
      s.views es' ≠ s.views es := by
  induction es generalizing s with
  | nil => exact absurd trivial hlate
  | cons e es ih =>
    obtain ⟨hlater, hrest⟩ := List.pairwise_cons.mp hclock
    by_cases htimely : s.Timely e
    · -- The purge goes somewhere behind this event.
      have hlate' : ¬ (s.next e).Prompt es := fun hprompt => hlate ⟨htimely, hprompt⟩
      obtain ⟨es', hpurges, hclock', htimes, hviews⟩ := ih (hs.step _ _) hrest hlate'
      refine ⟨e :: es', .keep e hpurges, List.pairwise_cons.mpr ⟨?_, hclock'⟩, ?_, ?_⟩
      · intro d hd
        obtain ⟨c, hc, hcd⟩ := htimes d hd
        exact hcd ▸ hlater c hc
      · intro d hd
        rcases List.mem_cons.mp hd with rfl | hd
        · exact ⟨d, List.mem_cons_self, rfl⟩
        · obtain ⟨c, hc, hcd⟩ := htimes d hd
          exact ⟨c, List.mem_cons_of_mem _ hc, hcd⟩
      · rw [views_cons, views_cons]
        exact fun heq => hviews (List.append_cancel_left heq)
    · -- The purge goes right before this event.
      refine ⟨⟨e.time, .purge⟩ :: e :: es, .purge _ (.refl _), ?_, ?_, ?_⟩
      · refine List.pairwise_cons.mpr ⟨?_, hclock⟩
        intro d hd
        rcases List.mem_cons.mp hd with rfl | hd
        · exact Int.le_refl _
        · exact hlater d hd
      · intro d hd
        rcases List.mem_cons.mp hd with rfl | hd
        · exact ⟨e, List.mem_cons_self, rfl⟩
        · exact ⟨d, hd, rfl⟩
      · obtain ⟨v, w, hv, hw, hne⟩ := exists_view?_ne hs htimely
        rw [views_cons, views_cons, views_cons]
        change [] ++ (((s.purge e.time).step e.time e.action).1.view?.toList ++ _) ≠ _
        rw [hv, hw]
        exact fun heq => hne (List.cons.inj heq).1

/-- Purges put into a run do not show exactly when every event of the run is timely: when none
closes an expired session that is stored, and none uses a default session that has expired and has
runs. -/
theorem views_withPurges_iff {ttl : Int} {es : List Event} (hclock : Clocked es) :
    (∀ es', WithPurges es es' → Clocked es' →
      (ofTimeToLive ttl).views es' = (ofTimeToLive ttl).views es) ↔
    (ofTimeToLive ttl).Prompt es := by
  have hs := distinct_ofTimeToLive ttl
  constructor
  · intro hsame
    by_contra hlate
    obtain ⟨es', hpurges, hclock', -, hviews⟩ := exists_views_ne hs hclock hlate
    exact hviews (hsame es' hpurges hclock')
  · intro hprompt es' hpurges hclock'
    cases es' with
    | nil =>
      cases hpurges
      rfl
    | cons e es' =>
      have hrefl : Agree e.time (ofTimeToLive ttl) (ofTimeToLive ttl) := Agree.refl hs
      exact hrefl.views hpurges hprompt hclock' hclock'.le_of_mem

/-- A session that has expired is looked up before it is closed. -/
def promptSample : List Event :=
  [⟨0, .create "a" []⟩, ⟨11, .use "a" id⟩, ⟨12, .close "a"⟩, ⟨13, .list⟩]

/-- A session that has expired is closed. -/
def lateSample : List Event := [⟨0, .create "a" []⟩, ⟨11, .close "a"⟩]

/-- Purges do not show where the lookup has dropped the expired session, and one shows where the
session is closed at once. -/
theorem views_withPurges_iff_sample :
    (∀ es', WithPurges promptSample es' → Clocked es' →
      (ofTimeToLive 10).views es' = (ofTimeToLive 10).views promptSample) ∧
    ∃ es', WithPurges lateSample es' ∧ Clocked es' ∧
      (ofTimeToLive 10).views es' ≠ (ofTimeToLive 10).views lateSample := by
  have hclock : Clocked promptSample := by
    unfold Clocked promptSample
    decide
  have hclock' : Clocked lateSample := by
    unfold Clocked lateSample
    decide
  have hprompt : (ofTimeToLive 10).Prompt promptSample :=
    ⟨trivial, trivial, fun x hx => (nomatch hx), trivial, trivial⟩
  have hlate : ¬ (ofTimeToLive 10).Prompt lateSample := fun h =>
    Bool.false_ne_true (h.2.1 (fresh "a" 0 []) rfl).symm
  refine ⟨(views_withPurges_iff hclock).mpr hprompt, ?_⟩
  simpa using (views_withPurges_iff hclock').not.mpr hlate

end StylesheetTrace.Sessions
