import Mathlib.Data.List.Nodup
import StylesheetTrace.Session

/-!
# Steps on the sessions

What clients and the cleanup do with the sessions is a sequence of timed actions. `step` performs
one with the functions of `Session.lean`; a use of a session looks it up and works in its store.
What a step can do is said once, by what is found under each identifier afterwards (`find?_step`):
no proof about runs looks into the list of sessions again. For this no two sessions may have one
identifier, which every step preserves (`Distinct.step`).
-/

namespace StylesheetTrace.Sessions

/-! ## Actions and runs -/

/-- What is done with the sessions. A use looks a session up and changes its store by `work`. -/
inductive Action where
  | create (id : String) (metadata : List (String × String))
  | use (id : String) (work : RunStore → RunStore)
  | close (id : String)
  | list
  | count
  | useDefault (work : RunStore → RunStore)
  | purge

/-- What an action answers. -/
inductive Outcome where
  | created (x : Session)
  | found (answer : Except SessionError Session)
  | closed (answer : Except SessionError Unit)
  | listed (xs : List Session)
  | counted (n : Nat)
  | opened (x : Session)
  | purged

/-- An action at a time. -/
structure Event where
  /-- When it is done. -/
  time : Int
  /-- What is done. -/
  action : Action

/-- The answer to an action at the time `now`, and the sessions after it. -/
def step (s : Sessions) (now : Int) : Action → Outcome × Sessions
  | .create id metadata => (.created (s.create id now metadata).1, (s.create id now metadata).2)
  | .use id work =>
    match s.lookup id now with
    | (.ok x, s) => (.found (.ok x), s.withStore id (work x.store))
    | (.error e, s) => (.found (.error e), s)
  | .close id =>
    match s.close id with
    | .ok s => (.closed (.ok ()), s)
    | .error e => (.closed (.error e), s)
  | .list => (.listed (s.live now), s)
  | .count => (.counted (s.activeCount now), s)
  | .useDefault work =>
    (.opened (s.openDefault now).1,
      (s.openDefault now).2.withStore defaultId (work (s.openDefault now).1.store))
  | .purge => (.purged, s.purge now)

/-- The sessions after an event. -/
def next (s : Sessions) (e : Event) : Sessions := (s.step e.time e.action).2

/-- The sessions after a run. -/
def run (s : Sessions) (es : List Event) : Sessions := es.foldl next s

/-- The events of a run with their answers. -/
def history (s : Sessions) : List Event → List (Event × Outcome)
  | [] => []
  | e :: es => (e, (s.step e.time e.action).1) :: history (s.next e) es

/-- The clock of the run never goes back. -/
def Clocked (es : List Event) : Prop := es.Pairwise fun d e => d.time ≤ e.time

/-- The identifiers under which sessions are created, in order. -/
def createdIds (es : List Event) : List String :=
  es.filterMap fun e => match e.action with
    | .create id _ => some id
    | _ => none

/-- In a run whose clock never goes back nothing is earlier than the first event. -/
theorem Clocked.le_of_mem {e : Event} {es : List Event} (h : Clocked (e :: es)) :
    ∀ d ∈ e :: es, e.time ≤ d.time := by
  intro d hd
  rcases List.mem_cons.mp hd with rfl | hd
  · exact Int.le_refl _
  · exact List.rel_of_pairwise_cons h hd

/-! ## What is found -/

/-- The session with an identifier, if it has not expired. -/
def live? (s : Sessions) (now : Int) (id : String) : Option Session :=
  (s.find? id).filter fun x => !s.hasExpired now x

/-- The identifiers of the sessions, in their order. -/
def ids (s : Sessions) : List String := s.sessions.map Session.id

/-- No two sessions have one identifier. -/
def Distinct (s : Sessions) : Prop := s.ids.Nodup

section

variable {s : Sessions}

/-- The session that is found has the identifier. -/
theorem id_of_find? {id : String} {x : Session} (h : s.find? id = some x) : x.id = id := by
  unfold find? at h
  simpa using List.find?_some h

/-- A session is found exactly when it is one of them. -/
theorem find?_eq_some (hs : s.Distinct) {id : String} {x : Session} :
    s.find? id = some x ↔ x ∈ s.sessions ∧ x.id = id := by
  constructor
  · intro h
    exact ⟨List.mem_of_find?_eq_some h, id_of_find? h⟩
  · rintro ⟨hx, rfl⟩
    obtain ⟨y, hy⟩ : ∃ y, s.find? x.id = some y := by
      rw [← Option.isSome_iff_exists, find?, List.find?_isSome]
      exact ⟨x, hx, beq_self_eq_true _⟩
    have hmem : y ∈ s.sessions := List.mem_of_find?_eq_some hy
    rw [hy, List.inj_on_of_nodup_map hs hmem hx (id_of_find? hy)]

/-- An identifier under which nothing is found is none of a session. -/
theorem find?_eq_none {id : String} : s.find? id = none ↔ id ∉ s.ids := by
  unfold find? ids
  rw [List.find?_eq_none, List.mem_map]
  simp

/-- A session is live when it is found and has not expired. -/
theorem live?_eq_some {now : Int} {id : String} {x : Session} :
    s.live? now id = some x ↔ s.find? id = some x ∧ now - x.lastUsed ≤ s.timeToLive := by
  simp [live?, hasExpired, Option.filter_eq_some_iff]

/-- A session has not expired while its last use is recent. -/
theorem not_hasExpired (s : Sessions) (t : Int) (x : Session) :
    (!s.hasExpired t x) = decide (t - x.lastUsed ≤ s.timeToLive) := by
  rw [hasExpired, ← decide_not]
  exact decide_eq_decide.mpr Int.not_lt

/-- Whether a session has expired can be read off any part of it that holds its last use. -/
theorem map_filter_hasExpired {β : Type} (s : Sessions) (t : Int) (f : Session → β)
    (last : β → Int) (hf : ∀ x, last (f x) = x.lastUsed) (o : Option Session) :
    (o.filter fun x => !s.hasExpired t x).map f =
      (o.map f).filter fun p => t - last p ≤ s.timeToLive := by
  rw [Option.filter_map]
  congr 2
  funext x
  rw [not_hasExpired, Function.comp_apply, hf]

/-- What is found when one session is changed. -/
theorem find?_update {id : String} {f : Session → Session} (hf : ∀ x, x.id = id → (f x).id = id)
    (k : String) : (s.update id f).find? k = if k = id then (s.find? id).map f else s.find? k := by
  have hid : ∀ x : Session, (if x.id == id then f x else x).id = x.id := by
    intro x
    split
    · rename_i hx
      rw [hf x (beq_iff_eq.mp hx), beq_iff_eq.mp hx]
    · rfl
  have hmap : (s.update id f).find? k =
      (s.find? k).map fun x => if x.id == id then f x else x := by
    unfold update find?
    simp only [List.find?_map, Function.comp_def, hid]
  rw [hmap]
  cases h : s.find? k with
  | none =>
    split
    · rename_i hk
      rw [← hk, h]
      rfl
    · rfl
  | some x =>
    have hx := id_of_find? h
    by_cases hk : k = id
    · rw [if_pos hk, ← hk, h, Option.map_some, Option.map_some, hx, beq_self_eq_true]
      rfl
    · rw [if_neg hk, Option.map_some, hx, beq_eq_false_iff_ne.mpr hk]
      rfl

/-- What is found when one session is dropped. -/
theorem find?_drop (id k : String) :
    (s.drop id).find? k = if k = id then none else s.find? k := by
  unfold drop find?
  rw [List.find?_filter]
  by_cases hk : k = id
  · rw [if_pos hk, List.find?_eq_none, hk]
    simp
  · rw [if_neg hk]
    congr 1
    funext x
    by_cases hx : x.id = k
    · simp [hx, hk]
    · simp [hx]

/-- What is found when a session is put in. -/
theorem find?_put (x : Session) (k : String) :
    (s.put x).find? k = if k = x.id then some x else s.find? k := by
  unfold put
  cases h : s.find? x.id with
  | some y =>
    rw [Option.isSome_some, if_pos rfl, find?_update (fun _ _ => rfl), h]
    rfl
  | none =>
    rw [Option.isSome_none, if_neg Bool.false_ne_true]
    unfold find? at h ⊢
    rw [List.find?_append]
    by_cases hk : k = x.id
    · rw [if_pos hk, hk, h]
      simp
    · rw [if_neg hk, List.find?_singleton, beq_eq_false_iff_ne.mpr (Ne.symm hk)]
      simp

/-- What is found when the expired sessions are dropped. -/
theorem find?_purge (hs : s.Distinct) (now : Int) (k : String) :
    (s.purge now).find? k = s.live? now k := by
  have hpurge : (s.purge now).Distinct := hs.sublist (List.filter_sublist.map _)
  ext x
  rw [find?_eq_some hpurge, live?_eq_some, find?_eq_some hs]
  simp [purge, hasExpired, and_right_comm]

end

/-! ## What a step can do -/

/-- The session when it was used at the time `now`. -/
def used (x : Session) (now : Int) (work : RunStore → RunStore) : Session :=
  { x with lastUsed := now, store := work x.store }

/-- What is found under an identifier after an action at the time `now`. -/
def foundAfter (s : Sessions) (now : Int) (a : Action) (k : String) : Option Session :=
  match a with
  | .create id metadata => if k = id then some (fresh id now metadata) else s.find? k
  | .use id work =>
    if k = id then (s.live? now id).map fun x => used x now work else s.find? k
  | .close id => if k = id then none else s.find? k
  | .useDefault work =>
    if k = defaultId then some (used ((s.find? defaultId).getD (fresh defaultId now [])) now work)
    else s.find? k
  | .purge => s.live? now k
  | .list | .count => s.find? k

section

variable {s : Sessions}

/-- What is found when the store of a session is replaced. -/
theorem find?_withStore (id : String) (store : RunStore) (k : String) :
    (s.withStore id store).find? k =
      if k = id then (s.find? id).map fun x => { x with store } else s.find? k :=
  find?_update (f := fun x => { x with store }) (fun _ h => h) k

/-- A lookup of a live session finds it and counts as a use of it. -/
theorem lookup_of_live {now : Int} {id : String} {x : Session} (h : s.live? now id = some x) :
    s.lookup id now = (.ok { x with lastUsed := now },
      s.update id fun _ => { x with lastUsed := now }) := by
  obtain ⟨hfound, hlive⟩ := live?_eq_some.mp h
  have hexpired : s.hasExpired now x = false := by
    rw [hasExpired, decide_eq_false_iff_not]
    omega
  unfold lookup
  rw [hfound]
  simp only [hexpired, Bool.false_eq_true, if_false]

/-- Dropping a session that is not found changes nothing. -/
theorem drop_of_not_found {id : String} (h : s.find? id = none) : s.drop id = s := by
  have hall : ∀ x ∈ s.sessions, (x.id != id) = true := by
    intro x hx
    rw [bne_iff_ne]
    rintro rfl
    exact find?_eq_none.mp h (List.mem_map_of_mem hx)
  rw [drop, List.filter_eq_self.mpr hall]

/-- A lookup of no live session fails and leaves none under the identifier. -/
theorem lookup_of_not_live {now : Int} {id : String} (h : s.live? now id = none) :
    ∃ e, s.lookup id now = (.error e, s.drop id) := by
  unfold lookup
  cases hfound : s.find? id with
  | none => exact ⟨.unknown id, by rw [drop_of_not_found hfound]⟩
  | some x =>
    have hexpired : s.hasExpired now x = true := by
      simpa [live?, hfound] using h
    exact ⟨.expired id, by simp only [hexpired, if_true]⟩

/-- A session that is found, expired or not, is closed. -/
theorem close_of_found {id : String} (h : (s.find? id).isSome = true) :
    s.close id = .ok (s.drop id) := by
  obtain ⟨x, hx⟩ := Option.isSome_iff_exists.mp h
  rw [close, hx]

/-- A session that is not found is not closed. -/
theorem close_of_not_found {id : String} (h : s.find? id = none) :
    s.close id = .error (.unknown id) := by
  rw [close, h]

/-- A lookup succeeds exactly when the session is live. -/
theorem isOk_lookup (s : Sessions) (id : String) (now : Int) :
    (s.lookup id now).1.isOk = (s.live? now id).isSome := by
  cases h : s.live? now id with
  | none =>
    obtain ⟨e, he⟩ := lookup_of_not_live h
    rw [he]
    rfl
  | some x =>
    rw [lookup_of_live h]
    rfl

/-- The default session is used where it is found, and opened otherwise. -/
theorem openDefault_eq (s : Sessions) (now : Int) :
    (s.openDefault now).1 =
        { (s.find? defaultId).getD (fresh defaultId now []) with lastUsed := now } ∧
      ∀ k, (s.openDefault now).2.find? k =
        if k = defaultId then some (s.openDefault now).1 else s.find? k := by
  unfold openDefault
  cases h : s.find? defaultId with
  | none => exact ⟨rfl, find?_put _⟩
  | some x =>
    have hx : x.id = defaultId := id_of_find? h
    have hused := @find?_update s defaultId (fun _ => { x with lastUsed := now }) fun _ _ => hx
    refine ⟨rfl, fun k => ?_⟩
    dsimp only
    rw [hused, h]
    rfl

/-- A use of a live session works in its store. -/
theorem step_use_of_live {now : Int} {id : String} {x : Session} (h : s.live? now id = some x)
    (work : RunStore → RunStore) :
    s.step now (.use id work) = (.found (.ok { x with lastUsed := now }),
      (s.update id fun _ => { x with lastUsed := now }).withStore id (work x.store)) := by
  unfold step
  simp only [lookup_of_live h]

/-- A use of a live session that leaves its store as it is amounts to a lookup. -/
theorem step_look_of_live {now : Int} {id : String} {x : Session} (h : s.live? now id = some x) :
    (s.step now (.use id fun store => store)).2 =
      s.update id fun _ => { x with lastUsed := now } := by
  have hid : x.id = id := id_of_find? (live?_eq_some.mp h).1
  rw [step_use_of_live h]
  unfold withStore update
  dsimp only
  rw [List.map_map]
  congr 1
  refine List.map_congr_left fun y _ => ?_
  rw [Function.comp_apply]
  by_cases hy : y.id = id
  · simp [hy, hid]
  · simp [hy]

/-- A use of no live session fails and leaves none under the identifier. -/
theorem step_use_of_not_live {now : Int} {id : String} (h : s.live? now id = none)
    (work : RunStore → RunStore) :
    ∃ e, s.step now (.use id work) = (.found (.error e), s.drop id) := by
  obtain ⟨e, he⟩ := lookup_of_not_live h
  exact ⟨e, by unfold step; simp only [he]⟩

/-- A step that closes a session succeeds exactly when it is found, and leaves none under the
identifier. -/
theorem step_close (s : Sessions) (now : Int) (id : String) :
    ∃ answer, s.step now (.close id) = (.closed answer, s.drop id) ∧
      answer.isOk = (s.find? id).isSome := by
  unfold step
  cases h : s.find? id with
  | none =>
    refine ⟨.error (.unknown id), ?_, rfl⟩
    simp only [close_of_not_found h, drop_of_not_found h]
  | some x =>
    refine ⟨.ok (), ?_, rfl⟩
    simp only [close_of_found (h ▸ rfl : (s.find? id).isSome = true)]

/-- After a step, what is found under each identifier is what the action leaves there. -/
theorem find?_step (hs : s.Distinct) (now : Int) (a : Action) (k : String) :
    (s.step now a).2.find? k = foundAfter s now a k := by
  cases a with
  | create id metadata => exact find?_put _ k
  | use id work =>
    cases h : s.live? now id with
    | none =>
      obtain ⟨e, he⟩ := step_use_of_not_live h work
      rw [he, foundAfter, find?_drop, h]
      rfl
    | some x =>
      obtain ⟨hfound, -⟩ := live?_eq_some.mp h
      have hx : x.id = id := id_of_find? hfound
      have hused := @find?_update s id (fun _ => { x with lastUsed := now }) fun _ _ => hx
      rw [step_use_of_live h, foundAfter, find?_withStore, hused, hused, if_pos rfl, hfound, h]
      split <;> rfl
  | close id =>
    obtain ⟨answer, hstep, -⟩ := step_close s now id
    rw [hstep]
    exact find?_drop id k
  | list => rfl
  | count => rfl
  | useDefault work =>
    obtain ⟨hopened, hfound⟩ := openDefault_eq s now
    unfold step foundAfter
    dsimp only
    rw [find?_withStore, hfound, hfound, if_pos rfl, hopened]
    split <;> rfl
  | purge => exact find?_purge hs now k

/-- A step does not change the time to live. -/
theorem timeToLive_step (s : Sessions) (now : Int) (a : Action) :
    (s.step now a).2.timeToLive = s.timeToLive := by
  have hput : ∀ x : Session, (s.put x).timeToLive = s.timeToLive := by
    intro x
    unfold put
    split <;> rfl
  cases a with
  | create id metadata => exact hput _
  | use id work =>
    cases h : s.live? now id with
    | none =>
      obtain ⟨e, he⟩ := step_use_of_not_live h work
      rw [he]
      rfl
    | some x =>
      rw [step_use_of_live h]
      rfl
  | close id =>
    obtain ⟨answer, hstep, -⟩ := step_close s now id
    rw [hstep]
    rfl
  | list => rfl
  | count => rfl
  | useDefault work =>
    have hopen : (s.openDefault now).2.timeToLive = s.timeToLive := by
      unfold openDefault
      split
      · rfl
      · exact hput _
    exact hopen
  | purge => rfl

/-! ## Identifiers -/

/-- The identifier under which an action may open a session. -/
def Action.opens? : Action → Option String
  | .create id _ => some id
  | .useDefault _ => some defaultId
  | _ => none

/-- Changing a session keeps the identifiers. -/
theorem ids_update {id : String} {f : Session → Session} (hf : ∀ x, x.id = id → (f x).id = id) :
    (s.update id f).ids = s.ids := by
  unfold ids update
  rw [List.map_map]
  refine List.map_congr_left fun x _ => ?_
  rw [Function.comp_apply]
  split
  · rename_i hx
    rw [hf x (beq_iff_eq.mp hx), beq_iff_eq.mp hx]
  · rfl

/-- Dropping sessions leaves the other identifiers in their order. -/
theorem ids_filter_sublist (p : Session → Bool) :
    ((s.sessions.filter p).map Session.id).Sublist s.ids :=
  List.filter_sublist.map _

/-- A session that is put in keeps the place of its identifier, or goes behind the others. -/
theorem ids_put (x : Session) :
    (s.put x).ids = if x.id ∈ s.ids then s.ids else s.ids ++ [x.id] := by
  unfold put
  cases h : s.find? x.id with
  | some y =>
    have hmem : x.id ∈ s.ids := by
      by_contra hmem
      rw [find?_eq_none.mpr hmem] at h
      exact absurd h (by simp)
    rw [Option.isSome_some, if_pos rfl, if_pos hmem, ids_update fun _ _ => rfl]
  | none =>
    rw [Option.isSome_none, if_neg Bool.false_ne_true, if_neg (find?_eq_none.mp h)]
    simp [ids]

/-- A step leaves the identifiers in their order but for those that go, or puts a new one behind
them. -/
theorem ids_step (s : Sessions) (now : Int) (a : Action) :
    (s.step now a).2.ids.Sublist s.ids ∨
      ∃ id, a.opens? = some id ∧ id ∉ s.ids ∧ (s.step now a).2.ids = s.ids ++ [id] := by
  have hput : ∀ x : Session, (s.put x).ids.Sublist s.ids ∨
      x.id ∉ s.ids ∧ (s.put x).ids = s.ids ++ [x.id] := by
    intro x
    rw [ids_put]
    split
    · exact Or.inl (List.Sublist.refl _)
    · rename_i hx
      exact Or.inr ⟨hx, rfl⟩
  have hstore : ∀ (t : Sessions) id store, (t.withStore id store).ids = t.ids := fun t id store =>
    ids_update (f := fun x => { x with store }) fun _ h => h
  cases a with
  | create id metadata =>
    exact (hput (fresh id now metadata)).imp_right fun h => ⟨id, rfl, h⟩
  | use id work =>
    refine Or.inl ?_
    cases h : s.live? now id with
    | none =>
      obtain ⟨e, he⟩ := step_use_of_not_live h work
      rw [he]
      exact ids_filter_sublist _
    | some x =>
      have hx : x.id = id := id_of_find? (live?_eq_some.mp h).1
      rw [step_use_of_live h]
      dsimp only
      rw [hstore, @ids_update s id (fun _ => { x with lastUsed := now }) fun _ _ => hx]
  | close id =>
    obtain ⟨answer, hstep, -⟩ := step_close s now id
    rw [hstep]
    exact Or.inl (ids_filter_sublist _)
  | list => exact Or.inl (List.Sublist.refl _)
  | count => exact Or.inl (List.Sublist.refl _)
  | useDefault work =>
    unfold step
    dsimp only
    rw [hstore]
    unfold openDefault
    cases h : s.find? defaultId with
    | none =>
      exact (hput (fresh defaultId now [])).imp_right fun h => ⟨defaultId, rfl, h⟩
    | some x =>
      have hx : x.id = defaultId := id_of_find? h
      dsimp only
      rw [@ids_update s defaultId (fun _ => { x with lastUsed := now }) fun _ _ => hx]
      exact Or.inl (List.Sublist.refl _)
  | purge => exact Or.inl (ids_filter_sublist _)

/-- A step keeps the identifiers of the sessions distinct. -/
theorem Distinct.step (h : s.Distinct) (now : Int) (a : Action) : (s.step now a).2.Distinct := by
  rcases ids_step s now a with hsub | ⟨id, -, hnew, hids⟩
  · exact h.sublist hsub
  · unfold Distinct
    rw [hids]
    rw [← List.concat_eq_append]
    exact (List.nodup_concat s.ids id).mpr ⟨hnew, h⟩

end

/-! ## Runs -/

section

/-- A run goes on from one event to the next. -/
@[simp]
theorem run_cons (s : Sessions) (e : Event) (es : List Event) :
    s.run (e :: es) = (s.next e).run es := rfl

/-- Runs one behind the other. -/
@[simp]
theorem run_append (s : Sessions) (ds es : List Event) :
    s.run (ds ++ es) = (s.run ds).run es :=
  List.foldl_append

/-- The answers of runs one behind the other. -/
theorem history_append (s : Sessions) (ds es : List Event) :
    s.history (ds ++ es) = s.history ds ++ (s.run ds).history es := by
  induction ds generalizing s with
  | nil => rfl
  | cons d ds ih => rw [List.cons_append, history, history, ih, run_cons, List.cons_append]

/-- A run keeps the identifiers distinct. -/
theorem Distinct.run {s : Sessions} (h : s.Distinct) (es : List Event) : (s.run es).Distinct := by
  induction es generalizing s with
  | nil => exact h
  | cons e es ih => exact ih (h.step e.time e.action)

/-- A run does not change the time to live. -/
theorem timeToLive_run (s : Sessions) (es : List Event) :
    (s.run es).timeToLive = s.timeToLive := by
  induction es generalizing s with
  | nil => rfl
  | cons e es ih => rw [run_cons, ih, next, timeToLive_step]

/-- No sessions have distinct identifiers. -/
theorem distinct_ofTimeToLive (ttl : Int) : (ofTimeToLive ttl).Distinct := List.nodup_nil

end

end StylesheetTrace.Sessions
