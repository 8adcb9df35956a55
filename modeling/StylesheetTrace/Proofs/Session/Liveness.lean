import Mathlib.Data.List.Chain
import Mathlib.Data.List.Perm.Subperm
import StylesheetTrace.Proofs.Session.Step

/-!
# Which sessions are live

Whether a session is live is decided by what was done with it: when it was created, when it was
looked up, and whether it was closed. `lastUse?` reads the last use of a session off a run, with no
regard to purges, and the state agrees with it at every time that is still to come (`Tracks`): an
expired session that is still stored is as good as none. A step preserves this (`Tracks.next`) and
so does a run (`Tracks.run`).

After its creation a session is found as long as it was not closed and no gap between its uses is
longer than the time to live (`isSome_live?_run`). The identifiers are stored in the order in which
they were created (`ids_run`), so that the list of the live sessions is the order of creation.
-/

namespace StylesheetTrace.Sessions

/-! ## The history of a session -/

/-- The run without its purges. -/
def withoutPurges (es : List Event) : List Event :=
  es.filter fun e => match e.action with
    | .purge => false
    | _ => true

/-- The event looks the session up. -/
def Event.looksUp (e : Event) (id : String) : Bool :=
  match e.action with
  | .use k _ => k == id
  | _ => false

/-- The times at which a run looks a session up. -/
def lookupTimes (id : String) (es : List Event) : List Int :=
  (es.filter fun e => e.looksUp id).map Event.time

/-- The session was closed with success. -/
def WasClosed (id : String) (h : List (Event × Outcome)) : Prop :=
  ∃ p ∈ h, p.1.action = .close id ∧ p.2 = .closed (.ok ())

/-- The last use of a session that is not lost, after an event. -/
def useAfter (ttl : Int) (id : String) (last : Option Int) (e : Event) : Option Int :=
  match e.action with
  | .create k _ => if k = id then some e.time else last
  | .use k _ =>
    if k = id then (last.filter fun u => e.time - u ≤ ttl).map fun _ => e.time else last
  | .close k => if k = id then none else last
  | .useDefault _ => if defaultId = id then some e.time else last
  | .list | .count | .purge => last

/-- The last use of a session in a run, if it was not lost since. -/
def lastUse? (ttl : Int) (id : String) (es : List Event) : Option Int :=
  es.foldl (useAfter ttl id) none

/-- Purges have no part in the last use of a session. -/
theorem lastUse?_withoutPurges (ttl : Int) (id : String) (es : List Event) :
    lastUse? ttl id (withoutPurges es) = lastUse? ttl id es := by
  unfold lastUse? withoutPurges
  generalize (none : Option Int) = last
  induction es generalizing last with
  | nil => rfl
  | cons e es ih =>
    obtain ⟨time, action⟩ := e
    cases action <;> exact ih _

/-- Purges create no session. -/
theorem createdIds_withoutPurges (es : List Event) :
    createdIds (withoutPurges es) = createdIds es := by
  unfold createdIds withoutPurges
  rw [List.filterMap_filter]
  refine List.filterMap_congr fun e _ => ?_
  obtain ⟨time, action⟩ := e
  cases action <;> rfl

/-- A session is not created by a run when neither the first event nor a later one creates it. -/
theorem not_mem_createdIds_cons {id : String} {e : Event} {es : List Event} :
    id ∉ createdIds (e :: es) ↔
      (∀ metadata, e.action ≠ .create id metadata) ∧ id ∉ createdIds es := by
  obtain ⟨time, action⟩ := e
  cases action with
  | create k metadata =>
    unfold createdIds
    simp [eq_comm]
  | _ => simp [createdIds]

/-- A session that is lost stays so until it is created again. -/
theorem foldl_useAfter_none {ttl : Int} {id : String} (hid : id ≠ defaultId) {es : List Event}
    (hnew : id ∉ createdIds es) : es.foldl (useAfter ttl id) none = none := by
  induction es with
  | nil => rfl
  | cons e es ih =>
    obtain ⟨hcreate, hrest⟩ := not_mem_createdIds_cons.mp hnew
    obtain ⟨time, action⟩ := e
    have hlost : useAfter ttl id none ⟨time, action⟩ = none := by
      cases action with
      | create k metadata => exact if_neg fun hk => hcreate metadata (by rw [hk])
      | useDefault work => exact if_neg hid.symm
      | use k work => exact ite_self none
      | close k => exact ite_self none
      | list => rfl
      | count => rfl
      | purge => rfl
    rw [List.foldl_cons, hlost]
    exact ih hrest

/-! ## The state follows the history -/

/-- From the time `now` on, the session is live exactly while its last use is recent. -/
def Tracks (s : Sessions) (now : Int) (id : String) (last : Option Int) : Prop :=
  ∀ t, now ≤ t → (s.live? t id).map Session.lastUsed = last.filter fun u => t - u ≤ s.timeToLive

section

variable {s : Sessions} {now : Int} {id : String} {last : Option Int}

/-- What is tracked from one time on is so from a later time on. -/
theorem Tracks.mono (h : Tracks s now id last) {t : Int} (hnow : now ≤ t) : Tracks s t id last :=
  fun u hu => h u (Int.le_trans hnow hu)

/-- What is expired stays so. -/
theorem live?_filter {t : Int} (h : now ≤ t) :
    (s.live? now id).filter (fun x => !s.hasExpired t x) = s.live? t id := by
  ext x
  simp only [live?, hasExpired, Option.filter_eq_some_iff, Bool.not_eq_true',
    decide_eq_false_iff_not]
  constructor
  · rintro ⟨⟨hx, -⟩, hlive⟩
    exact ⟨hx, hlive⟩
  · rintro ⟨hx, hlive⟩
    exact ⟨⟨hx, by omega⟩, hlive⟩

/-- What is live after a step. -/
theorem live?_step (hs : s.Distinct) (a : Action) (t : Int) :
    (s.step now a).2.live? t id =
      (foundAfter s now a id).filter fun x => !s.hasExpired t x := by
  unfold live? hasExpired
  rw [find?_step hs, timeToLive_step]

/-- What is live depends on what is found. -/
theorem live?_congr {s' : Sessions} (hfound : s'.find? id = s.find? id)
    (httl : s'.timeToLive = s.timeToLive) (t : Int) : s'.live? t id = s.live? t id := by
  unfold live? hasExpired
  rw [hfound, httl]

/-- A step brings the last use up to date. -/
theorem Tracks.next (hs : s.Distinct) (h : Tracks s now id last) {e : Event}
    (hnow : now ≤ e.time) :
    Tracks (s.next e) e.time id (useAfter s.timeToLive id last e) := by
  intro t ht
  obtain ⟨time, action⟩ := e
  dsimp only at hnow ht
  have hbefore := h time hnow
  have hfilter := map_filter_hasExpired s t Session.lastUsed (fun u => u) fun _ => rfl
  -- Where the action is about another session, nothing is different.
  have hsame : ((s.find? id).filter fun x => !s.hasExpired t x).map Session.lastUsed =
      last.filter fun u => t - u ≤ s.timeToLive := h t (Int.le_trans hnow ht)
  unfold Sessions.next
  rw [live?_step hs, timeToLive_step]
  unfold foundAfter useAfter
  cases action with
  | create k metadata =>
    dsimp only
    by_cases hk : k = id
    · rw [if_pos hk.symm, if_pos hk]
      exact hfilter (some _)
    · rw [if_neg (Ne.symm hk), if_neg hk]
      exact hsame
  | use k work =>
    dsimp only
    by_cases hk : k = id
    · rw [if_pos hk.symm, if_pos hk, hk, ← hbefore]
      cases s.live? time id with
      | none => rfl
      | some x => exact hfilter (some _)
    · rw [if_neg (Ne.symm hk), if_neg hk]
      exact hsame
  | close k =>
    dsimp only
    by_cases hk : k = id
    · rw [if_pos hk.symm, if_pos hk]
      rfl
    · rw [if_neg (Ne.symm hk), if_neg hk]
      exact hsame
  | useDefault work =>
    dsimp only
    by_cases hk : defaultId = id
    · rw [if_pos hk.symm, if_pos hk]
      exact hfilter (some _)
    · rw [if_neg (Ne.symm hk), if_neg hk]
      exact hsame
  | purge =>
    dsimp only
    rw [live?_filter ht]
    exact hsame
  | list => exact hsame
  | count => exact hsame

/-- Closing succeeds and the session is lost, or it fails: then the session was purged, and its last
use is too long ago in any case. -/
theorem Tracks.next_close (hs : s.Distinct) {u : Int} (h : Tracks s now id (some u)) {e : Event}
    (hnow : now ≤ e.time) (hclose : e.action = .close id) :
    ((s.step e.time e.action).1 = .closed (.ok ()) ∧ Tracks (s.next e) e.time id none) ∨
      ((s.step e.time e.action).1 ≠ .closed (.ok ()) ∧
        Tracks (s.next e) e.time id (some u)) := by
  have hnext := h.next hs hnow
  obtain ⟨answer, hstep, hanswer⟩ := step_close s e.time id
  rw [← hclose] at hstep
  rw [hstep]
  cases hfound : s.find? id with
  | some x =>
    have hok : answer = .ok () := by
      cases answer with
      | ok y => rfl
      | error err => exact absurd (hanswer.trans (by rw [hfound]; rfl)) Bool.false_ne_true
    have hafter : useAfter s.timeToLive id (some u) e = none := by
      simp [useAfter, hclose]
    exact Or.inl ⟨by rw [hok], hafter ▸ hnext⟩
  | none =>
    have hfailed : answer ≠ .ok () := by
      rintro rfl
      rw [hfound] at hanswer
      exact absurd hanswer.symm Bool.false_ne_true
    have hgone : (s.next e).find? id = s.find? id := by
      rw [Sessions.next, find?_step hs, hclose, foundAfter, if_pos rfl, hfound]
    have httl : (s.next e).timeToLive = s.timeToLive := timeToLive_step ..
    refine Or.inr ⟨by simpa using hfailed, fun t ht => ?_⟩
    rw [live?_congr hgone httl, httl]
    exact h t (Int.le_trans hnow ht)

/-- A run brings the last use up to date. -/
theorem Tracks.run (hs : s.Distinct) (h : Tracks s now id last) {es : List Event}
    (hclock : Clocked es) (hstart : ∀ e ∈ es, now ≤ e.time) {t : Int} (hnow : now ≤ t)
    (hend : ∀ e ∈ es, e.time ≤ t) :
    Tracks (s.run es) t id (es.foldl (useAfter s.timeToLive id) last) := by
  induction es generalizing s now last with
  | nil => exact h.mono hnow
  | cons e es ih =>
    obtain ⟨hlater, hclock⟩ := List.pairwise_cons.mp hclock
    have hnext := h.next hs (hstart e List.mem_cons_self)
    have hrun := ih (hs.step _ _) hnext hclock hlater (hend e List.mem_cons_self)
      fun d hd => hend d (List.mem_cons_of_mem _ hd)
    rwa [timeToLive_step] at hrun

end

/-- After a run, a session is live as long as its last use in the run is recent. -/
theorem tracks_run {ttl : Int} {es : List Event} (hclock : Clocked es) {now : Int}
    (hnow : ∀ e ∈ es, e.time ≤ now) (id : String) :
    Tracks ((ofTimeToLive ttl).run es) now id (lastUse? ttl id es) := by
  have hempty : ∀ start, Tracks (ofTimeToLive ttl) start id none := fun _ _ _ => rfl
  cases es with
  | nil => exact hempty now
  | cons e es =>
    exact (hempty e.time).run (distinct_ofTimeToLive ttl) hclock hclock.le_of_mem
      (hnow e List.mem_cons_self) hnow

/-! ## Sessions after their creation -/

section

variable {s : Sessions} {now : Int} {id : String}

/-- A session whose last use is tracked is live while that use is recent. -/
theorem Tracks.isSome_live? {last : Option Int} (h : Tracks s now id last) :
    (s.live? now id).isSome = last.any fun u => now - u ≤ s.timeToLive := by
  rw [← Option.isSome_map (f := Session.lastUsed), h now (Int.le_refl now)]
  cases last with
  | none => rfl
  | some u =>
    rw [Option.filter_some, Option.any_some]
    cases decide (now - u ≤ s.timeToLive) <;> rfl

/-- A run that does not create the session leaves it lost. -/
theorem Tracks.live?_run_eq_none (hs : s.Distinct) (h : Tracks s now id none) (hid : id ≠ defaultId)
    {es : List Event} (hnew : id ∉ createdIds es) (hclock : Clocked es)
    (hstart : ∀ e ∈ es, now ≤ e.time) {t : Int} (hnow : now ≤ t) (hend : ∀ e ∈ es, e.time ≤ t) :
    (s.run es).live? t id = none := by
  have hrun := h.run hs hclock hstart hnow hend
  rw [foldl_useAfter_none hid hnew] at hrun
  have hlive := hrun t (Int.le_refl t)
  rwa [Option.filter_none, Option.map_eq_none_iff] at hlive

/-- An event that looks a session up is a use of it. -/
theorem exists_use_of_looksUp {e : Event} (h : e.looksUp id = true) :
    ∃ work, e.action = .use id work := by
  obtain ⟨time, action⟩ := e
  cases action with
  | use k work => exact ⟨work, by rw [beq_iff_eq.mp h]⟩
  | _ => exact absurd h Bool.false_ne_true

/-- Only a use of the session, and its closing, concern its last use once it was created. -/
theorem useAfter_of_other (ttl : Int) (last : Option Int) (hid : id ≠ defaultId) {e : Event}
    (hcreate : ∀ metadata, e.action ≠ .create id metadata) (huse : e.looksUp id = false)
    (hclose : e.action ≠ .close id) : useAfter ttl id last e = last := by
  obtain ⟨time, action⟩ := e
  cases action with
  | create k metadata => exact if_neg fun hk => hcreate metadata (by rw [hk])
  | use k work => exact if_neg fun hk => by simp [Event.looksUp, hk] at huse
  | close k => exact if_neg fun hk => hclose (by rw [hk])
  | useDefault work => exact if_neg hid.symm
  | list => rfl
  | count => rfl
  | purge => rfl

/-- A session was closed by the first event or by a later one. -/
theorem wasClosed_cons {p : Event × Outcome} {h : List (Event × Outcome)} :
    WasClosed id (p :: h) ↔
      (p.1.action = .close id ∧ p.2 = .closed (.ok ())) ∨ WasClosed id h := by
  simp [WasClosed]

/-- After its creation a session is live exactly when it was not closed and no gap between its
creation, its uses and now is longer than the time to live. -/
theorem isSome_live?_run (hs : s.Distinct) (hid : id ≠ defaultId) {u : Int}
    (h : Tracks s now id (some u)) {es : List Event} (hnew : id ∉ createdIds es)
    (hclock : Clocked es) (hstart : ∀ e ∈ es, now ≤ e.time) {t : Int} (hnow : now ≤ t)
    (hend : ∀ e ∈ es, e.time ≤ t) :
    ((s.run es).live? t id).isSome = true ↔ ¬ WasClosed id (s.history es) ∧
      (u :: (lookupTimes id es ++ [t])).IsChain fun a b => b - a ≤ s.timeToLive := by
  induction es generalizing s now u with
  | nil =>
    have hlive : (s.live? t id).isSome = _ := (h.mono hnow).isSome_live?
    simp [run, hlive, WasClosed, history, lookupTimes]
  | cons e es ih =>
    obtain ⟨hcreate, hnew⟩ := not_mem_createdIds_cons.mp hnew
    obtain ⟨hlater, hclock⟩ := List.pairwise_cons.mp hclock
    have hdistinct : (s.next e).Distinct := hs.step e.time e.action
    have httl : (s.next e).timeToLive = s.timeToLive := timeToLive_step ..
    have hhead : e.time ≤ t := hend e List.mem_cons_self
    have htail : ∀ d ∈ es, d.time ≤ t := fun d hd => hend d (List.mem_cons_of_mem _ hd)
    have hnext := h.next hs (hstart e List.mem_cons_self)
    -- After the event the session is lost, or it is tracked with its last use.
    have hlost : Tracks (s.next e) e.time id none → ((s.run (e :: es)).live? t id).isSome = false :=
      fun hnone => by
        rw [run_cons, hnone.live?_run_eq_none hdistinct hid hnew hclock hlater hhead htail]
        rfl
    have hkept : ∀ v, Tracks (s.next e) e.time id (some v) → _ := fun v hv =>
      ih hdistinct hv hnew hclock hlater hhead htail
    have hhistory : s.history (e :: es) =
      (e, (s.step e.time e.action).1) :: (s.next e).history es := rfl
    rw [hhistory, wasClosed_cons]
    by_cases huse : e.looksUp id = true
    · obtain ⟨work, hwork⟩ := exists_use_of_looksUp huse
      have hafter : useAfter s.timeToLive id (some u) e =
          if e.time - u ≤ s.timeToLive then some e.time else none := by
        simp [useAfter, hwork, Option.filter, apply_ite]
      have htimes : lookupTimes id (e :: es) = e.time :: lookupTimes id es := by
        simp [lookupTimes, huse]
      have hopen : e.action ≠ .close id := by simp [hwork]
      rw [hafter] at hnext
      rw [htimes, List.cons_append, List.isChain_cons_cons, or_iff_right fun h => hopen h.1]
      by_cases hgap : e.time - u ≤ s.timeToLive
      · rw [if_pos hgap] at hnext
        rw [run_cons, hkept e.time hnext, httl, and_iff_right hgap]
      · rw [if_neg hgap] at hnext
        rw [hlost hnext]
        exact iff_of_false Bool.false_ne_true fun hlive => hgap hlive.2.1
    · have htimes : lookupTimes id (e :: es) = lookupTimes id es := by
        simp [lookupTimes, huse]
      by_cases hclose : e.action = .close id
      · rcases h.next_close hs (hstart e List.mem_cons_self) hclose with ⟨hok, hnone⟩ | ⟨hno, hsome⟩
        · rw [hlost hnone]
          exact iff_of_false Bool.false_ne_true fun hkept => hkept.1 (Or.inl ⟨hclose, hok⟩)
        · rw [run_cons, hkept u hsome, htimes, httl]
          simp [hno]
      · rw [useAfter_of_other _ _ hid hcreate (Bool.eq_false_iff.mpr huse) hclose] at hnext
        rw [run_cons, hkept u hnext, htimes, httl]
        simp [hclose]

end

/-! ## The sessions that are listed and counted -/

/-- Sublists of a list without repetitions are equal when they have the same members. -/
theorem eq_of_sublist_of_mem_iff {l a b : List String} (hl : l.Nodup) (ha : a.Sublist l)
    (hb : b.Sublist l) (h : ∀ x, x ∈ a ↔ x ∈ b) : a = b := by
  have hfilter : ∀ {c : List String}, c.Sublist l → c = l.filter fun x => x ∈ c := by
    intro c hc
    have hsub : c.Sublist (l.filter fun x => x ∈ c) := by
      have hself : (c.filter fun x => x ∈ c) = c := List.filter_eq_self.mpr (by simp)
      rw [← hself]
      simpa using hc.filter fun x => x ∈ c
    have hle : (l.filter fun x => x ∈ c).length ≤ c.length :=
      (List.Nodup.subperm (hl.filter _) fun x hx => by
        simpa using (List.mem_filter.mp hx).2).length_le
    exact hsub.eq_of_length_le hle
  rw [hfilter ha, hfilter hb]
  exact List.filter_congr fun x _ => by simp [h x]

section

variable {s : Sessions}

/-- At most one session has an identifier. -/
theorem filter_id_eq (hs : s.Distinct) (id : String) :
    (s.sessions.filter fun x => x.id == id) = (s.find? id).toList := by
  obtain ⟨ttl, sessions⟩ := s
  unfold find? Distinct ids at *
  dsimp only at hs ⊢
  induction sessions with
  | nil => rfl
  | cons x xs ih =>
    obtain ⟨hx, hxs⟩ := List.nodup_cons.mp hs
    rw [List.filter_cons, List.find?_cons]
    by_cases hid : x.id = id
    · have hnone : (xs.filter fun y => y.id == id) = [] := by
        rw [List.filter_eq_nil_iff]
        intro y hy hyid
        exact hx (List.mem_map.mpr ⟨y, hy, (beq_iff_eq.mp hyid).trans hid.symm⟩)
      simp [hid, hnone]
    · rw [if_neg (by simpa using hid), beq_eq_false_iff_ne.mpr hid]
      exact ih hxs

/-- A session is listed when it is live and not the default one. -/
theorem mem_live {now : Int} (hs : s.Distinct) (id : String) :
    id ∈ (s.live now).map Session.id ↔ id ≠ defaultId ∧ (s.live? now id).isSome = true := by
  rw [Option.isSome_iff_exists]
  simp only [List.mem_map, live, List.mem_filter, live?, Option.filter_eq_some_iff,
    find?_eq_some hs, Bool.and_eq_true, bne_iff_ne]
  constructor
  · rintro ⟨x, ⟨hx, hdefault, hlive⟩, rfl⟩
    exact ⟨hdefault, x, ⟨hx, rfl⟩, hlive⟩
  · rintro ⟨hdefault, x, ⟨hx, rfl⟩, hlive⟩
    exact ⟨x, ⟨hx, hdefault, hlive⟩, rfl⟩

/-- A session whose last use is recent is live. -/
theorem any_recent_eq (s : Sessions) (now : Int) (id : String) :
    ((s.find? id).any fun x => now - x.lastUsed ≤ s.timeToLive) = (s.live? now id).isSome := by
  rw [Bool.eq_iff_iff, Option.any_eq_true, Option.isSome_iff_exists]
  simp only [live?_eq_some, decide_eq_true_eq]

/-- The sessions that are counted are those that are listed, and the default one if it is live. -/
theorem activeCount_eq (hs : s.Distinct) (now : Int) :
    s.activeCount now = (s.live now).length +
      ((s.find? defaultId).any fun x => now - x.lastUsed ≤ s.timeToLive).toNat := by
  have hdefault : (s.sessions.filter fun x => !(x.id != defaultId)) =
      (s.find? defaultId).toList := by
    simpa only [bne, Bool.not_not] using filter_id_eq hs defaultId
  unfold activeCount live
  rw [List.countP_eq_countP_filter_add _ _ fun x => x.id != defaultId, hdefault,
    List.countP_filter, List.countP_eq_length_filter]
  congr 1
  · simp [Bool.and_comm]
  · cases s.find? defaultId with
    | none => rfl
    | some x =>
      rw [Option.toList_some, List.countP_singleton, not_hasExpired, Option.any_some]
      cases decide (now - x.lastUsed ≤ s.timeToLive) <;> rfl

end

/-- After a run the sessions but for the default one stand in the order of their creation. -/
theorem ids_run (s : Sessions) (es : List Event) :
    ((s.run es).ids.filter (· != defaultId)).Sublist
      (s.ids.filter (· != defaultId) ++ createdIds es) := by
  induction es generalizing s with
  | nil => simp [run, createdIds]
  | cons e es ih =>
    refine (ih (s.next e)).trans ?_
    have hstep := ids_step s e.time e.action
    obtain ⟨time, action⟩ := e
    rcases hstep with hsub | ⟨id, hopens, -, hids⟩
    · refine (hsub.filter _).append ?_
      unfold createdIds
      rw [List.filterMap_cons]
      split
      · exact List.Sublist.refl _
      · exact List.sublist_cons_self _ _
    · rw [Sessions.next, hids, List.filter_append, List.append_assoc]
      refine (List.Sublist.refl _).append ?_
      cases action with
      | create k metadata =>
        obtain rfl : k = id := Option.some.inj hopens
        exact List.filter_sublist.append (List.Sublist.refl (createdIds es))
      | useDefault work =>
        obtain rfl : defaultId = id := Option.some.inj hopens
        simp [createdIds]
      | _ => exact absurd hopens (by simp [Action.opens?])

/-! ## Runs from the start -/

/-- The sessions after a run that starts without any. -/
def after (ttl : Int) (es : List Event) : Sessions := (ofTimeToLive ttl).run es

/-- A lookup at the time `now`, after a run, finds the session. -/
def Finds (ttl : Int) (es : List Event) (now : Int) (id : String) : Prop :=
  ((after ttl es).lookup id now).1.isOk = true

section

variable {ttl : Int} {es : List Event} {now : Int}

/-- No two sessions have one identifier after a run. -/
theorem distinct_after (ttl : Int) (es : List Event) : (after ttl es).Distinct :=
  (distinct_ofTimeToLive ttl).run es

/-- A run keeps the time to live with which it starts. -/
theorem timeToLive_after (ttl : Int) (es : List Event) : (after ttl es).timeToLive = ttl :=
  timeToLive_run (ofTimeToLive ttl) es

/-- A run goes on where the one before it ended. -/
theorem after_append (ttl : Int) (ds es : List Event) :
    after ttl (ds ++ es) = (after ttl ds).run es :=
  run_append ..

/-- One more event in a run is one more step. -/
theorem after_concat (ttl : Int) (es : List Event) (e : Event) :
    after ttl (es ++ [e]) = (after ttl es).next e :=
  run_append ..

/-- A lookup succeeds while the last use of the session is recent. -/
theorem finds_iff_lastUse? (hclock : Clocked es) (hnow : ∀ e ∈ es, e.time ≤ now) (id : String) :
    Finds ttl es now id ↔ ((lastUse? ttl id es).any fun u => now - u ≤ ttl) = true := by
  have htracks : Tracks (after ttl es) now id (lastUse? ttl id es) := tracks_run hclock hnow id
  rw [Finds, isOk_lookup, htracks.isSome_live?, timeToLive_after]

/-- A created session is found as long as it was not closed and no gap between its creation, its
lookups and now is longer than the time to live. -/
theorem finds_created {past future : List Event} {born : Int} {id : String}
    {metadata : List (String × String)}
    (hclock : Clocked (past ++ ⟨born, .create id metadata⟩ :: future))
    (hids : (createdIds (past ++ ⟨born, .create id metadata⟩ :: future)).Nodup)
    (hnow : ∀ e ∈ past ++ ⟨born, .create id metadata⟩ :: future, e.time ≤ now)
    (hid : id ≠ defaultId) :
    Finds ttl (past ++ ⟨born, .create id metadata⟩ :: future) now id ↔
      ¬ WasClosed id ((after ttl (past ++ [⟨born, .create id metadata⟩])).history future) ∧
        (born :: (lookupTimes id future ++ [now])).IsChain fun a b => b - a ≤ ttl := by
  obtain ⟨hpast, hfuture, hbefore⟩ := List.pairwise_append.mp hclock
  obtain ⟨hstart, hfuture⟩ := List.pairwise_cons.mp hfuture
  have hnew : id ∉ createdIds future := by
    have hnodup : (createdIds past ++ id :: createdIds future).Nodup := by
      simpa [createdIds] using hids
    exact (List.nodup_cons.mp hnodup.of_append_right).1
  have hborn : ∀ e ∈ past, e.time ≤ born := fun e he => hbefore e he _ List.mem_cons_self
  have htracks :
      Tracks (after ttl (past ++ [⟨born, .create id metadata⟩])) born id (some born) := by
    have hpasttracks : Tracks (after ttl past) born id (lastUse? ttl id past) :=
      tracks_run hpast hborn id
    have hnext := hpasttracks.next (distinct_after ttl past) (e := ⟨born, .create id metadata⟩)
      (Int.le_refl born)
    have hnamed : useAfter (after ttl past).timeToLive id (lastUse? ttl id past)
        ⟨born, .create id metadata⟩ = some born := if_pos rfl
    rwa [hnamed, ← after_concat] at hnext
  have hiff := isSome_live?_run (distinct_after ttl _) hid htracks hnew hfuture hstart
    (hnow ⟨born, .create id metadata⟩ (by simp)) fun e he => hnow e (by simp [he])
  have hrun : after ttl (past ++ ⟨born, .create id metadata⟩ :: future) =
      (after ttl (past ++ [⟨born, .create id metadata⟩])).run future := by
    rw [← after_append, List.append_assoc, List.singleton_append]
  rw [Finds, isOk_lookup, hrun, hiff, timeToLive_after]

/-- Once a lookup of a created session has failed, so do all later ones. -/
theorem not_finds_of_failed {past before later : List Event} {born t : Int} {id : String}
    {metadata : List (String × String)} {work : RunStore → RunStore}
    (hes : es = past ++ ⟨born, .create id metadata⟩ :: (before ++ ⟨t, .use id work⟩ :: later))
    (hclock : Clocked es) (hids : (createdIds es).Nodup) (hnow : ∀ e ∈ es, e.time ≤ now)
    (hid : id ≠ defaultId)
    (hfailed : ¬ Finds ttl (past ++ ⟨born, .create id metadata⟩ :: before) t id) :
    ¬ Finds ttl es now id := by
  -- The run up to the failed lookup is a run of its own.
  have hsplit : es =
      (past ++ ⟨born, .create id metadata⟩ :: before) ++ ⟨t, .use id work⟩ :: later := by
    rw [hes, List.append_assoc, List.cons_append]
  obtain ⟨hclock', -, hend⟩ := List.pairwise_append.mp (hsplit ▸ hclock)
  have hids' : (createdIds (past ++ ⟨born, .create id metadata⟩ :: before)).Nodup := by
    rw [hsplit, createdIds, List.filterMap_append] at hids
    exact hids.of_append_left
  have hfailed' := (finds_created hclock' hids' (fun e he => hend e he _ List.mem_cons_self)
    hid).not.mp hfailed
  subst hes
  rw [finds_created hclock hids hnow hid]
  rintro ⟨hopen, hchain⟩
  refine hfailed' ⟨?_, ?_⟩
  · rintro ⟨p, hp, hclosed⟩
    refine hopen ⟨p, ?_, hclosed⟩
    rw [history_append]
    exact List.mem_append_left _ hp
  · have htimes : lookupTimes id (before ++ ⟨t, .use id work⟩ :: later) =
        lookupTimes id before ++ t :: lookupTimes id later := by
      simp [lookupTimes, Event.looksUp]
    rw [htimes] at hchain
    refine hchain.prefix ⟨lookupTimes id later ++ [now], ?_⟩
    simp

/-- A session is listed when it is found and not the default one. -/
theorem mem_live_after (ttl : Int) (es : List Event) (now : Int) (id : String) :
    id ∈ ((after ttl es).live now).map Session.id ↔ id ≠ defaultId ∧ Finds ttl es now id := by
  rw [mem_live (distinct_after ttl es), Finds, isOk_lookup]

/-- The sessions are listed in the order of their creation. -/
theorem live_sublist_createdIds (ttl : Int) (es : List Event) (now : Int) :
    (((after ttl es).live now).map Session.id).Sublist (createdIds es) := by
  have hlive : (after ttl es).live now = ((after ttl es).sessions.filter
      fun x => x.id != defaultId).filter fun x => !(after ttl es).hasExpired now x := by
    rw [List.filter_filter]
    exact List.filter_congr fun x _ => Bool.and_comm ..
  have hids : ((after ttl es).sessions.filter fun x => x.id != defaultId).map Session.id =
      (after ttl es).ids.filter (· != defaultId) := by
    rw [ids, List.filter_map]
    rfl
  rw [hlive]
  exact (List.filter_sublist.map _).trans (hids ▸ ids_run (ofTimeToLive ttl) es)

/-- Where purges fall makes no difference to what is found, listed and counted. -/
theorem same_of_withoutPurges {es' : List Event} (hsame : withoutPurges es' = withoutPurges es)
    (hclock : Clocked es) (hclock' : Clocked es') (hids : (createdIds es).Nodup)
    (hnow : ∀ e ∈ es, e.time ≤ now) (hnow' : ∀ e ∈ es', e.time ≤ now) :
    (∀ id, Finds ttl es' now id ↔ Finds ttl es now id) ∧
      ((after ttl es').live now).map Session.id = ((after ttl es).live now).map Session.id ∧
      (after ttl es').activeCount now = (after ttl es).activeCount now := by
  have hfinds : ∀ id, Finds ttl es' now id ↔ Finds ttl es now id := by
    intro id
    rw [finds_iff_lastUse? hclock hnow, finds_iff_lastUse? hclock' hnow',
      ← lastUse?_withoutPurges, hsame, lastUse?_withoutPurges]
  have hcreated : createdIds es' = createdIds es := by
    rw [← createdIds_withoutPurges, hsame, createdIds_withoutPurges]
  have hlisted : ((after ttl es').live now).map Session.id =
      ((after ttl es).live now).map Session.id := by
    refine eq_of_sublist_of_mem_iff hids ?_ (live_sublist_createdIds ttl es now) fun id => ?_
    · exact hcreated ▸ live_sublist_createdIds ttl es' now
    · rw [mem_live_after, mem_live_after, hfinds]
  have hdefault : ((after ttl es').live? now defaultId).isSome =
      ((after ttl es).live? now defaultId).isSome := by
    rw [← isOk_lookup, ← isOk_lookup]
    exact Bool.eq_iff_iff.mpr (hfinds defaultId)
  have hcounted : (after ttl es').activeCount now = (after ttl es).activeCount now := by
    have hlength := congrArg List.length hlisted
    rw [List.length_map, List.length_map] at hlength
    rw [activeCount_eq (distinct_after ttl es'), activeCount_eq (distinct_after ttl es), hlength,
      any_recent_eq, any_recent_eq, hdefault]
  exact ⟨hfinds, hlisted, hcounted⟩

/-- Which sessions are live is decided by what was done with them: a created session is found as
long as it was not closed and each gap between its creation, its lookups and now is at most the time
to live, and once it is not found it is never found again; listed are, in the order of their
creation, the sessions that are found, but for the default one, which is counted with them while its
last use is recent; and purges have no part in any of this. -/
theorem liveness_of_history (hclock : Clocked es) (hids : (createdIds es).Nodup)
    (hnow : ∀ e ∈ es, e.time ≤ now) :
    (∀ past born id metadata future, es = past ++ ⟨born, .create id metadata⟩ :: future →
      id ≠ defaultId →
      (Finds ttl es now id ↔
        ¬ WasClosed id ((after ttl (past ++ [⟨born, .create id metadata⟩])).history future) ∧
          (born :: (lookupTimes id future ++ [now])).IsChain fun a b => b - a ≤ ttl) ∧
      ∀ before t work later, future = before ++ ⟨t, .use id work⟩ :: later →
        ¬ Finds ttl (past ++ ⟨born, .create id metadata⟩ :: before) t id →
        ¬ Finds ttl es now id) ∧
    (∀ id, id ∈ ((after ttl es).live now).map Session.id ↔
      id ≠ defaultId ∧ Finds ttl es now id) ∧
    (((after ttl es).live now).map Session.id).Sublist (createdIds es) ∧
    (after ttl es).activeCount now = ((after ttl es).live now).length +
      (((after ttl es).find? defaultId).any fun x => now - x.lastUsed ≤ ttl).toNat ∧
    ∀ es', withoutPurges es' = withoutPurges es → Clocked es' → (∀ e ∈ es', e.time ≤ now) →
      (∀ id, Finds ttl es' now id ↔ Finds ttl es now id) ∧
      ((after ttl es').live now).map Session.id = ((after ttl es).live now).map Session.id ∧
      (after ttl es').activeCount now = (after ttl es).activeCount now := by
  refine ⟨?_, mem_live_after ttl es now, live_sublist_createdIds ttl es now, ?_, ?_⟩
  · intro past born id metadata future hes hid
    refine ⟨?_, fun before t work later hfuture => ?_⟩
    · subst hes
      exact finds_created hclock hids hnow hid
    · exact not_finds_of_failed (hfuture ▸ hes) hclock hids hnow hid
  · have hcount := activeCount_eq (distinct_after ttl es) now
    rwa [timeToLive_after] at hcount
  · intro es' hsame hclock' hnow'
    exact same_of_withoutPurges hsame hclock hclock' hids hnow hnow'

end

/-- What follows the creation of a session `a` at the time `0`: it is looked up before ten seconds
have passed each time, while a session `b` is not and is purged. -/
def sampleFuture : List Event :=
  [⟨1, .create "b" []⟩, ⟨2, .useDefault id⟩, ⟨8, .use "a" id⟩, ⟨14, .purge⟩, ⟨15, .close "b"⟩,
    ⟨17, .use "a" id⟩]

/-- The session `a` is found at the end, and so it is where the purge is left out. -/
theorem liveness_of_history_sample :
    Finds 10 (⟨0, .create "a" []⟩ :: sampleFuture) 20 "a" ∧
      Finds 10 (⟨0, .create "a" []⟩ :: withoutPurges sampleFuture) 20 "a" := by
  have hclock : Clocked (⟨0, .create "a" []⟩ :: sampleFuture) := by
    unfold Clocked sampleFuture
    decide
  have hclock' : Clocked (⟨0, .create "a" []⟩ :: withoutPurges sampleFuture) :=
    hclock.sublist (List.filter_sublist.cons_cons _)
  have hids : (createdIds (⟨0, .create "a" []⟩ :: sampleFuture)).Nodup := by decide
  have hnow : ∀ e ∈ (⟨0, .create "a" []⟩ :: sampleFuture : List Event), e.time ≤ 20 := by
    unfold sampleFuture
    decide
  obtain ⟨hcreated, -, -, -, hpurged⟩ := @liveness_of_history 10 _ _ hclock hids hnow
  have hopen : ¬ WasClosed "a" ((after 10 [⟨0, .create "a" []⟩]).history sampleFuture) := by
    simp [WasClosed, history, sampleFuture]
  have hchain : (0 :: (lookupTimes "a" sampleFuture ++ [20])).IsChain fun a b => b - a ≤ 10 := by
    decide
  have hfinds := (hcreated [] 0 "a" [] sampleFuture rfl (by decide)).1.mpr ⟨hopen, hchain⟩
  have hsame := (hpurged _ (by rfl) hclock' fun e he => hnow e ?_).1 "a"
  · exact ⟨hfinds, hsame.mpr hfinds⟩
  · exact (List.filter_sublist.cons_cons _).subset he

end StylesheetTrace.Sessions
