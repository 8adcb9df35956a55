import Mathlib.Data.List.Basic

/-!
# Results and refusals

A step that reads an input has a result or refuses it. Steps are taken one behind the other, and a
list is read item by item: it has a result when each item has one (`hasResult_mapM`), and is refused
for the first item that is refused (`mapM_eq_error`).
-/

namespace StylesheetTrace.Text

variable {α β ε δ : Type}

/-! ## Results -/

/-- A step behind another has a result when both have one. -/
theorem bind_eq_ok {x : Except ε α} {f : α → Except ε β} {b : β} :
    x >>= f = .ok b ↔ ∃ a, x = .ok a ∧ f a = .ok b := by
  cases x with
  | error e => simp [bind, Except.bind]
  | ok a => simp [bind, Except.bind]

/-- A result that is passed on. -/
theorem map_eq_ok {x : Except ε α} {f : α → β} {b : β} :
    x.map f = .ok b ↔ ∃ a, x = .ok a ∧ f a = b := by
  cases x with
  | error e => simp [Except.map]
  | ok a => simp [Except.map]

/-- The wording of a refusal does not matter for a result. -/
theorem mapError_eq_ok {x : Except ε α} {f : ε → δ} {a : α} :
    x.mapError f = .ok a ↔ x = .ok a := by
  cases x with
  | error e => simp [Except.mapError]
  | ok b => simp [Except.mapError]

/-- The results for a list none of whose items is refused. -/
theorem mapM_eq_ok {f : α → Except ε β} {g : α → β} {l : List α}
    (h : ∀ a ∈ l, f a = .ok (g a)) : l.mapM f = .ok (l.map g) := by
  induction l with
  | nil => rfl
  | cons a l ih =>
    rw [List.mapM_cons, h a List.mem_cons_self, ih fun b hb => h b (List.mem_cons_of_mem a hb)]
    rfl

/-- The results for a list, each with its item. -/
theorem mapM_pair_eq_ok {f : α → Except ε β} {l : List α} {ps : List (α × β)} :
    (l.mapM fun a => (f a).map fun b => (a, b)) = .ok ps ↔
      ps.map Prod.fst = l ∧ ∀ p ∈ ps, f p.1 = .ok p.2 := by
  induction l generalizing ps with
  | nil =>
    rw [List.mapM_nil, List.map_eq_nil_iff]
    constructor
    · intro h
      obtain rfl := Except.ok.inj h
      exact ⟨rfl, List.forall_mem_nil _⟩
    · rintro ⟨rfl, -⟩
      rfl
  | cons a l ih =>
    rw [List.mapM_cons, bind_eq_ok]
    simp only [map_eq_ok, bind_eq_ok, ih, pure, Except.pure, Except.ok.injEq]
    constructor
    · rintro ⟨p, ⟨b, hb, rfl⟩, qs, ⟨rfl, hqs⟩, rfl⟩
      exact ⟨rfl, List.forall_mem_cons.mpr ⟨hb, hqs⟩⟩
    · rintro ⟨hfst, hps⟩
      obtain ⟨p, qs, rfl, rfl, rfl⟩ := List.map_eq_cons_iff.mp hfst
      obtain ⟨hp, hqs⟩ := List.forall_mem_cons.mp hps
      exact ⟨p, ⟨p.2, hp, rfl⟩, qs, ⟨rfl, hqs⟩, rfl⟩

/-- The results for a list are those that its items have. -/
theorem mem_mapM_eq_ok {f : α → Except ε β} {l : List α} {bs : List β} (h : l.mapM f = .ok bs)
    {b : β} : b ∈ bs ↔ ∃ a ∈ l, f a = .ok b := by
  induction l generalizing bs with
  | nil =>
    obtain rfl := Except.ok.inj h
    simp
  | cons a l ih =>
    rw [List.mapM_cons] at h
    obtain ⟨c, hc, h⟩ := bind_eq_ok.mp h
    obtain ⟨cs, hcs, h⟩ := bind_eq_ok.mp h
    obtain rfl := Except.ok.inj h
    rw [List.mem_cons, ih hcs, List.exists_mem_cons_iff, hc, Except.ok.injEq, eq_comm]

/-- The results for a list are those of its items, one by one. -/
theorem forall₂_mapM_eq_ok {f : α → Except ε β} {l : List α} {bs : List β}
    (h : l.mapM f = .ok bs) : List.Forall₂ (fun a b => f a = .ok b) l bs := by
  induction l generalizing bs with
  | nil =>
    obtain rfl := Except.ok.inj h
    exact List.Forall₂.nil
  | cons a l ih =>
    rw [List.mapM_cons] at h
    obtain ⟨c, hc, h⟩ := bind_eq_ok.mp h
    obtain ⟨cs, hcs, h⟩ := bind_eq_ok.mp h
    obtain rfl := Except.ok.inj h
    exact List.Forall₂.cons hc (ih hcs)

/-- A list has results exactly when they are those of its items one by one. -/
theorem mapM_eq_ok_iff {f : α → Except ε β} {l : List α} {bs : List β} :
    l.mapM f = .ok bs ↔ List.Forall₂ (fun a b => f a = .ok b) l bs := by
  refine ⟨forall₂_mapM_eq_ok, fun h => ?_⟩
  induction h with
  | nil => rfl
  | cons hab _ ih =>
    rw [List.mapM_cons, hab, ih]
    rfl

/-- Lists whose items have the same results one by one have the same results. -/
theorem mapM_eq_ok_congr {γ : Type} {f : α → Except ε β} {g : γ → Except δ β} {l : List α}
    {m : List γ} (h : List.Forall₂ (fun a c => ∀ b, f a = .ok b ↔ g c = .ok b) l m) {bs : List β} :
    l.mapM f = .ok bs ↔ m.mapM g = .ok bs := by
  induction h generalizing bs with
  | nil => simp [pure, Except.pure]
  | cons hac _ ih =>
    rw [List.mapM_cons, List.mapM_cons, bind_eq_ok, bind_eq_ok]
    refine exists_congr fun b => and_congr (hac b) ?_
    rw [bind_eq_ok, bind_eq_ok]
    refine exists_congr fun cs => and_congr ih ?_
    simp [pure, Except.pure]

/-- The results for a list stand in the order of its items. -/
theorem getElem?_mapM_eq_ok {f : α → Except ε β} {l : List α} {bs : List β}
    (h : l.mapM f = .ok bs) {n : Nat} {b : β} (hb : bs[n]? = some b) :
    ∃ a, l[n]? = some a ∧ f a = .ok b := by
  induction l generalizing bs n with
  | nil =>
    obtain rfl := Except.ok.inj h
    exact absurd hb (by simp)
  | cons a l ih =>
    rw [List.mapM_cons] at h
    obtain ⟨c, hc, h⟩ := bind_eq_ok.mp h
    obtain ⟨cs, hcs, h⟩ := bind_eq_ok.mp h
    obtain rfl := Except.ok.inj h
    cases n with
    | zero =>
      obtain rfl : c = b := Option.some.inj hb
      exact ⟨a, rfl, hc⟩
    | succ n => exact ih hcs hb

/-! ## Inputs that are not refused -/

/-- The input is not refused. -/
def HasResult (x : Except ε α) : Prop :=
  ∃ a, x = .ok a

/-- An input without a result is refused. -/
theorem not_hasResult {x : Except ε α} : ¬ HasResult x ↔ ∃ e, x = .error e := by
  unfold HasResult
  cases x with
  | error e => simp
  | ok a => simp

/-- A step behind another is not refused when neither is. -/
theorem hasResult_bind {x : Except ε α} {f : α → Except ε β} :
    HasResult (x >>= f) ↔ ∃ a, x = .ok a ∧ HasResult (f a) := by
  unfold HasResult
  simp only [bind_eq_ok]
  constructor
  · rintro ⟨b, a, ha, hb⟩
    exact ⟨a, ha, b, hb⟩
  · rintro ⟨a, ha, b, hb⟩
    exact ⟨b, a, ha, hb⟩

/-- What is done with a result is not refused. -/
@[simp]
theorem hasResult_map {x : Except ε α} {f : α → β} : HasResult (x.map f) ↔ HasResult x := by
  cases x with
  | error e => simp [HasResult, Except.map]
  | ok a => simp [HasResult, Except.map]

/-- A last step that refuses nothing. -/
@[simp]
theorem hasResult_bind_pure {x : Except ε α} {f : α → β} :
    HasResult (x >>= fun a => pure (f a)) ↔ HasResult x := by
  rw [hasResult_bind]
  exact exists_congr fun a => and_iff_left ⟨f a, rfl⟩

/-- The wording of a refusal does not matter. -/
@[simp]
theorem hasResult_mapError {x : Except ε α} {f : ε → δ} :
    HasResult (x.mapError f) ↔ HasResult x := by
  unfold HasResult
  simp only [mapError_eq_ok]

/-- A list is not refused when none of its items is. -/
theorem hasResult_mapM {f : α → Except ε β} {l : List α} :
    HasResult (l.mapM f) ↔ ∀ a ∈ l, HasResult (f a) := by
  induction l with
  | nil => exact iff_of_true ⟨[], rfl⟩ (List.forall_mem_nil _)
  | cons a l ih =>
    rw [List.mapM_cons, hasResult_bind, List.forall_mem_cons, ← ih]
    constructor
    · rintro ⟨b, hb, hrest⟩
      obtain ⟨bs, hbs, -⟩ := hasResult_bind.mp hrest
      exact ⟨⟨b, hb⟩, bs, hbs⟩
    · rintro ⟨⟨b, hb⟩, bs, hbs⟩
      exact ⟨b, hb, hasResult_bind.mpr ⟨bs, hbs, b :: bs, rfl⟩⟩

/-! ## Refusals -/

/-- The first step is refused, or the one behind it. -/
theorem bind_eq_error {x : Except ε α} {f : α → Except ε β} {e : ε} :
    x >>= f = .error e ↔ x = .error e ∨ ∃ a, x = .ok a ∧ f a = .error e := by
  cases x with
  | error e' => simp [bind, Except.bind]
  | ok a => simp [bind, Except.bind]

/-- What is done with a result does not change a refusal. -/
theorem map_eq_error {x : Except ε α} {f : α → β} {e : ε} : x.map f = .error e ↔ x = .error e := by
  cases x with
  | error e' => simp [Except.map]
  | ok a => simp [Except.map]

/-- A refusal with another wording. -/
theorem mapError_eq_error {x : Except ε α} {f : ε → δ} {e : δ} :
    x.mapError f = .error e ↔ ∃ e', x = .error e' ∧ f e' = e := by
  cases x with
  | error e' => simp [Except.mapError]
  | ok a => simp [Except.mapError]

/-- A list is refused for the first of its items that is refused. -/
theorem mapM_eq_error {f : α → Except ε β} {l : List α} {e : ε} :
    l.mapM f = .error e ↔
      ∃ pre a post, l = pre ++ a :: post ∧ (∀ b ∈ pre, HasResult (f b)) ∧ f a = .error e := by
  induction l with
  | nil =>
    refine iff_of_false (by simp [pure, Except.pure]) ?_
    rintro ⟨pre, a, post, hl, -⟩
    exact absurd hl (by simp)
  | cons a l ih =>
    have hcons : (a :: l).mapM f = .error e ↔
        f a = .error e ∨ HasResult (f a) ∧ l.mapM f = .error e := by
      rw [List.mapM_cons, bind_eq_error]
      refine or_congr_right ?_
      simp only [bind_eq_error, pure, Except.pure, reduceCtorEq, and_false, exists_false, or_false]
      exact exists_and_right
    rw [hcons, ih]
    constructor
    · rintro (ha | ⟨ha, pre, b, post, rfl, hpre, hb⟩)
      · exact ⟨[], a, l, rfl, List.forall_mem_nil _, ha⟩
      · exact ⟨a :: pre, b, post, rfl, List.forall_mem_cons.mpr ⟨ha, hpre⟩, hb⟩
    · rintro ⟨pre, b, post, hl, hpre, hb⟩
      cases pre with
      | nil =>
        obtain ⟨rfl, rfl⟩ := List.cons.inj hl
        exact Or.inl hb
      | cons c pre =>
        obtain ⟨rfl, rfl⟩ := List.cons.inj hl
        obtain ⟨hc, hpre⟩ := List.forall_mem_cons.mp hpre
        exact Or.inr ⟨hc, pre, b, post, rfl, hpre, hb⟩

/-- Three steps, of which each takes the results of those before it, are refused for the first of
them that is refused. -/
theorem steps_eq_error {γ : Type} {x : Except ε α} {y : α → Except ε β} {z : α → β → Except ε γ}
    {g : γ → δ} {e : ε} :
    (x >>= fun a => y a >>= fun b => z a b >>= fun c => pure (g c)) = .error e ↔
      x = .error e ∨ ∃ a, x = .ok a ∧ (y a = .error e ∨ ∃ b, y a = .ok b ∧ z a b = .error e) := by
  have hlast : ∀ a b, (z a b >>= fun c => pure (g c)) = .error e ↔ z a b = .error e :=
    fun a b => map_eq_error (f := g)
  simp only [bind_eq_error, hlast]

/-! ## What an input is refused for -/

/-- What an input is refused for, if it is refused. -/
def refusalOf (x : Except ε α) : Except ε Unit := x.map fun _ => ()

/-- An input is refused for what it is refused for. -/
theorem refusalOf_eq_error {x : Except ε α} {e : ε} : refusalOf x = .error e ↔ x = .error e :=
  map_eq_error

/-- What is done with a result is refused for nothing more. -/
theorem refusalOf_map {x : Except ε α} {f : α → β} : refusalOf (x.map f) = refusalOf x := by
  cases x <;> rfl

/-- A step whose refusal does not depend on the result of the one before. -/
theorem refusalOf_bind {x : Except ε α} {f : α → Except ε β} {r : Except ε Unit}
    (h : ∀ a, refusalOf (f a) = r) : refusalOf (x >>= f) = refusalOf x >>= fun _ => r := by
  cases x with
  | error e => rfl
  | ok a => exact h a

/-- A last step that refuses nothing. -/
theorem refusalOf_bind_pure {x : Except ε α} {f : α → β} :
    refusalOf (x >>= fun a => pure (f a)) = refusalOf x := by
  cases x <;> rfl

/-- The first item of a list and the others. -/
theorem refusalOf_mapM_cons {f : α → Except ε β} {a : α} {l : List α} :
    refusalOf ((a :: l).mapM f) = refusalOf (f a) >>= fun _ => refusalOf (l.mapM f) := by
  rw [List.mapM_cons]
  exact refusalOf_bind fun _ => refusalOf_bind_pure

/-- The items of two lists one behind the other. -/
theorem refusalOf_mapM_append {f : α → Except ε β} {l m : List α} :
    refusalOf ((l ++ m).mapM f) = refusalOf (l.mapM f) >>= fun _ => refusalOf (m.mapM f) := by
  rw [List.mapM_append]
  exact refusalOf_bind fun _ => refusalOf_bind_pure

/-- Items that are refused like others. -/
theorem refusalOf_mapM_map {γ : Type} {f : α → Except ε β} {g : γ → Except ε δ} {k : α → γ}
    (h : ∀ a, refusalOf (g (k a)) = refusalOf (f a)) (l : List α) :
    refusalOf ((l.map k).mapM g) = refusalOf (l.mapM f) := by
  induction l with
  | nil => rfl
  | cons a l ih => rw [List.map_cons, refusalOf_mapM_cons, refusalOf_mapM_cons, h, ih]

/-- A single item. -/
theorem mapM_singleton_eq_error {f : α → Except ε β} {a : α} {e : ε} :
    [a].mapM f = .error e ↔ f a = .error e := by
  rw [← refusalOf_eq_error, refusalOf_mapM_cons, ← @refusalOf_eq_error _ _ (f a)]
  exact Iff.of_eq (congrArg (· = _) (bind_pure _))

/-- Items are worked off one by one, up to the first that fails. -/
theorem foldlM_eq_error {f : β → α → Except ε β} {l : List α} {b : β} {e : ε} :
    l.foldlM f b = .error e ↔ ∃ pre a post b', l = pre ++ a :: post ∧
      pre.foldlM f b = .ok b' ∧ f b' a = .error e := by
  constructor
  · intro h
    induction l generalizing b with
    | nil => exact absurd h (by simp [pure, Except.pure])
    | cons a l ih =>
      rw [List.foldlM_cons] at h
      rcases bind_eq_error.mp h with ha | ⟨b', hb', hl⟩
      · exact ⟨[], a, l, b, rfl, rfl, ha⟩
      · obtain ⟨pre, a', post, c, rfl, hpre, ha'⟩ := ih hl
        exact ⟨a :: pre, a', post, c, rfl, bind_eq_ok.mpr ⟨b', hb', hpre⟩, ha'⟩
  · rintro ⟨pre, a, post, b', rfl, hpre, ha⟩
    rw [List.foldlM_append]
    refine bind_eq_error.mpr (Or.inr ⟨b', hpre, ?_⟩)
    rw [List.foldlM_cons]
    exact bind_eq_error.mpr (Or.inl ha)

end StylesheetTrace.Text
