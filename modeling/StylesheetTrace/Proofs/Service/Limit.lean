import Mathlib.Algebra.GroupWithZero.Nat
import StylesheetTrace.Proofs.Service.Refusal

/-!
# The size of a body

Whether the body of a request is taken is decided by two sizes alone, the one that the request
declares and the one that its chunks have together. Where the chunks are cut does not matter: the
reading that stops at the first chunk beyond the limit stops exactly when all chunks together are
beyond it (`gather_eq`). A body that is taken is handed on whole, byte for byte
(`handle_of_hasBody`).
-/

namespace StylesheetTrace.Service

open StylesheetTrace.Text

/-! ## Chunks -/

/-- How many bytes the chunks have together. -/
def sizeOf (chunks : List ByteArray) : Nat := (chunks.map ByteArray.size).sum

/-- The bytes of the chunks, in their order. -/
def joined (chunks : List ByteArray) : ByteArray :=
  ⟨(chunks.flatMap fun c => c.data.toList).toArray⟩

/-- The bytes of the first chunk come first. -/
theorem joined_cons (c : ByteArray) (cs : List ByteArray) : joined (c :: cs) = c ++ joined cs := by
  refine ByteArray.ext ?_
  rw [ByteArray.data_append]
  simp [joined]

/-- The joined bytes are as many as the chunks have. -/
theorem size_joined (chunks : List ByteArray) : (joined chunks).size = sizeOf chunks := by
  induction chunks with
  | nil => rfl
  | cons c cs ih =>
    rw [joined_cons, ByteArray.size_append, ih]
    rfl

/-- From a state within the limit on, the chunks are gathered exactly when they do not go beyond it
all together. -/
theorem gather_eq {limit : Nat} {found : ByteArray} (h : found.size ≤ limit)
    (chunks : List ByteArray) : gather limit found chunks =
      if found.size + sizeOf chunks > limit then none else some (found ++ joined chunks) := by
  induction chunks generalizing found with
  | nil =>
    have hnone : joined [] = ByteArray.empty := rfl
    have hsize : ¬ found.size + sizeOf [] > limit := Nat.not_lt_of_le h
    rw [gather, if_neg hsize, hnone, ByteArray.append_empty]
  | cons c cs ih =>
    have hsum : sizeOf (c :: cs) = c.size + sizeOf cs := List.sum_cons
    rw [gather, hsum]
    by_cases hover : found.size + c.size > limit
    · -- The chunks that are not read any more only add to what is too much already.
      rw [if_pos hover, if_pos (by omega)]
    · have hfound : (found ++ c).size = found.size + c.size := ByteArray.size_append
      rw [if_neg hover, ih (by omega), hfound, joined_cons, ByteArray.append_assoc, Nat.add_assoc]

/-! ## Requests -/

/-- The request declares the size `n`. -/
def Request.Declares (r : Request) (n : Nat) : Prop :=
  ∃ value, r.header? "content-length" = some value ∧ readWhole 10 value.toList = .ok (n : Int)

/-- A request declares one size at most. -/
theorem Request.Declares.unique {r : Request} {m n : Nat} (hm : r.Declares m) (hn : r.Declares n) :
    m = n := by
  obtain ⟨value, hvalue, hread⟩ := hm
  obtain ⟨value', hvalue', hread'⟩ := hn
  obtain rfl := Option.some.inj (hvalue.symm.trans hvalue')
  exact Int.ofNat.inj (Except.ok.inj (hread.symm.trans hread'))

/-- The request declares a size that is no whole number from zero on. -/
def Request.Misdeclares (r : Request) : Prop :=
  (r.header? "content-length").isSome = true ∧ ∀ n, ¬ r.Declares n

/-- The body is beyond the limit of the path, as the request declares it or as it turns out. -/
def Request.Exceeds (r : Request) : Prop :=
  (∃ n, r.Declares n ∧ limitOf r.path * megabyte < n) ∨
    limitOf r.path * megabyte < sizeOf r.chunks

/-- The answer to a request whose body was taken, as it is sent. -/
def delivered (s : Service) (now : Int) (r : Request) (bytes : ByteArray) : Answered :=
  (((s.route now r bytes).1 >>= written).map (shownTo r), (s.route now r bytes).2)

section

variable {r : Request}

/-- A size is declared by a value that reads as a whole number from zero on. -/
theorem declaredSize?_eq_some {value : String} {n : Nat} :
    declaredSize? value = some n ↔ readWhole 10 value.toList = .ok (n : Int) := by
  unfold declaredSize?
  cases readWhole 10 value.toList with
  | error e => simp
  | ok k =>
    by_cases hk : k < 0
    · simp only [if_pos hk, Except.ok.injEq]
      exact iff_of_false (by simp) (by omega)
    · simp only [if_neg hk, Except.ok.injEq, Option.some.injEq]
      omega

/-- Of the declared size the check refuses what is none, and what is beyond the limit. -/
theorem checkDeclared_cases (limit : Nat) (r : Request) :
    (r.Misdeclares ∧ checkDeclared limit r = .error .badSize) ∨
    (¬ r.Misdeclares ∧ (∃ n, r.Declares n ∧ limit * megabyte < n) ∧
      checkDeclared limit r = .error (.tooLarge limit)) ∨
    (¬ r.Misdeclares ∧ (¬ ∃ n, r.Declares n ∧ limit * megabyte < n) ∧
      checkDeclared limit r = .ok ()) := by
  unfold checkDeclared Request.Misdeclares Request.Declares
  cases r.header? "content-length" with
  | none => exact Or.inr (Or.inr ⟨by simp, by simp, rfl⟩)
  | some value =>
    simp only [Option.some.injEq, exists_eq_left', ← declaredSize?_eq_some, Option.isSome_some,
      true_and]
    cases declaredSize? value with
    | none => exact Or.inl ⟨by simp, rfl⟩
    | some n =>
      have hdeclares : ¬ ∀ m, ¬ some n = some m := fun h => h n rfl
      by_cases hn : n > limit * megabyte
      · exact Or.inr (Or.inl ⟨hdeclares, ⟨n, rfl, hn⟩, if_pos hn⟩)
      · refine Or.inr (Or.inr ⟨hdeclares, ?_, if_neg hn⟩)
        rintro ⟨m, hm, hlimit⟩
        exact hn (Option.some.inj hm ▸ hlimit)

/-- Of a method with a body the body is taken, unless the declared size is none or one of the two
sizes is beyond the limit. -/
theorem takeBody_cases (hbody : r.hasBody = true) :
    (r.Misdeclares ∧ takeBody r = .error .badSize) ∨
    (¬ r.Misdeclares ∧ r.Exceeds ∧ takeBody r = .error (.tooLarge (limitOf r.path))) ∨
    (¬ r.Misdeclares ∧ ¬ r.Exceeds ∧ takeBody r = .ok (joined r.chunks)) := by
  have hempty : ByteArray.empty.size ≤ limitOf r.path * megabyte := Nat.zero_le _
  have hgather := gather_eq hempty r.chunks
  rw [ByteArray.size_empty, Nat.zero_add, ByteArray.empty_append] at hgather
  unfold takeBody
  dsimp only
  rcases checkDeclared_cases (limitOf r.path) r with ⟨hmis, hcheck⟩ | ⟨hmis, hover, hcheck⟩ |
    ⟨hmis, hwithin, hcheck⟩
  · exact Or.inl ⟨hmis, by rw [hcheck]; rfl⟩
  · exact Or.inr (Or.inl ⟨hmis, Or.inl hover, by rw [hcheck]; rfl⟩)
  · by_cases hsum : limitOf r.path * megabyte < sizeOf r.chunks
    · rw [if_pos hsum] at hgather
      exact Or.inr (Or.inl ⟨hmis, Or.inr hsum, by rw [hcheck, if_pos hbody, hgather]; rfl⟩)
    · rw [if_neg hsum] at hgather
      refine Or.inr (Or.inr ⟨hmis, ?_, by rw [hcheck, if_pos hbody, hgather]; rfl⟩)
      exact fun hexceeds => hexceeds.elim hwithin hsum

/-- The same bytes in other chunks make up the same body. -/
theorem takeBody_chunks {chunks : List ByteArray} (h : joined chunks = joined r.chunks) :
    takeBody { r with chunks } = takeBody r := by
  have hsize : sizeOf chunks = sizeOf r.chunks := by
    rw [← size_joined, h, size_joined]
  have hgather : ∀ limit, gather limit .empty chunks = gather limit .empty r.chunks := by
    intro limit
    rw [gather_eq (Nat.zero_le limit), gather_eq (Nat.zero_le limit), hsize, h]
  have hdeclared : ∀ limit, checkDeclared limit { r with chunks } = checkDeclared limit r :=
    fun _ => rfl
  simp only [takeBody, hdeclared, hgather]
  rfl

/-- A request whose body is not taken is answered with the refusal, and nothing else is done. -/
theorem handle_of_refusal {e : BodyRefusal} (hbody : r.hasBody = true) (h : takeBody r = .error e)
    (hwritten : written e.response = .ok e.response) (s : Service) (now : Int) :
    s.handle now r = (.ok e.response, s) := by
  have hhead : ¬ (r.method == "HEAD") = true := by
    intro hmethod
    rw [Request.hasBody, beq_iff_eq.mp hmethod] at hbody
    exact absurd hbody (by decide)
  have hshown : shownTo r e.response = e.response := if_neg hhead
  unfold handle reply
  rw [h]
  dsimp only
  rw [show (Except.ok e.response >>= written) = written e.response from rfl, hwritten]
  exact congrArg (fun response => (Except.ok response, s)) hshown

/-- The refusal of a body that is too large can be written. -/
theorem written_tooLarge (path : List Char) :
    written (BodyRefusal.tooLarge (limitOf path)).response =
      .ok (BodyRefusal.tooLarge (limitOf path)).response := by
  unfold limitOf
  dsimp only
  split <;> rfl

end

/-! ## Answers -/

/-- A request of a method with a body is refused with 400 exactly when it declares a size that is no
whole number from zero on; otherwise it is refused with 413 exactly when the size that it declares,
or that of all its chunks together, is beyond the limit of its path; and otherwise the bytes of its
chunks are handed on as they came. How the same bytes are cut into chunks changes no answer. -/
theorem handle_of_hasBody (s : Service) (now : Int) {r : Request}
    (hmethod : r.method ∈ ["POST", "PUT", "PATCH"]) :
    (takeBody r = .error .badSize ↔ r.Misdeclares) ∧
    (takeBody r = .error (.tooLarge (limitOf r.path)) ↔ ¬ r.Misdeclares ∧ r.Exceeds) ∧
    (∀ bytes, takeBody r = .ok bytes ↔ ¬ r.Misdeclares ∧ ¬ r.Exceeds ∧ bytes = joined r.chunks) ∧
    (r.Misdeclares → s.handle now r = (.ok (.detail 400 "Invalid Content-Length header"), s)) ∧
    (¬ r.Misdeclares → r.Exceeds → s.handle now r =
      (.ok (.detail 413 s!"Request body too large (max {limitOf r.path} MB)"), s)) ∧
    (¬ r.Misdeclares → ¬ r.Exceeds → s.handle now r = s.delivered now r (joined r.chunks)) ∧
    ∀ chunks, joined chunks = joined r.chunks →
      s.handle now { r with chunks } = s.handle now r := by
  have hbody : r.hasBody = true := List.contains_iff_mem.mpr hmethod
  refine ⟨?_, ?_, fun bytes => ?_, fun hmis => ?_, fun hmis hover => ?_, fun hmis hwithin => ?_,
    fun chunks hjoined => ?_⟩
  · rcases takeBody_cases hbody with ⟨hmis, h⟩ | ⟨hmis, -, h⟩ | ⟨hmis, -, h⟩ <;> simp [h, hmis]
  · rcases takeBody_cases hbody with ⟨hmis, h⟩ | ⟨hmis, hover, h⟩ | ⟨hmis, hover, h⟩
    · simp [h, hmis]
    · simp [h, hmis, hover]
    · simp [h, hmis, hover]
  · rcases takeBody_cases hbody with ⟨hmis, h⟩ | ⟨hmis, hover, h⟩ | ⟨hmis, hover, h⟩
    · simp [h, hmis]
    · simp [h, hmis, hover]
    · simp [h, hmis, hover, eq_comm]
  · have htake := ((takeBody_cases hbody).resolve_right (by tauto)).2
    exact handle_of_refusal hbody htake rfl s now
  · have htake := (((takeBody_cases hbody).resolve_left (by tauto)).resolve_right (by tauto)).2.2
    exact handle_of_refusal hbody htake (written_tooLarge r.path) s now
  · have htake := (((takeBody_cases hbody).resolve_left (by tauto)).resolve_left (by tauto)).2.2
    unfold handle
    rw [htake]
    rfl
  · -- Behind the check of its size a request is answered from its bytes and its head alone.
    unfold handle
    rw [takeBody_chunks hjoined]
    rfl

/-- A request that declares less than it has in its two chunks. -/
def sampleUnderstated : Request :=
  ⟨"POST", "/instrument", [("Content-Length", " +1 ")], ["a".toUTF8, "bc".toUTF8]⟩

/-- A request that declares more than its path takes, and has less. -/
def sampleOverstated : Request :=
  ⟨"POST", "/sessions", [("Content-Length", "2_000_000")], ["a".toUTF8, "bc".toUTF8]⟩

/-- The bytes of the first request are handed on, and the second is refused. -/
theorem handle_of_hasBody_sample :
    sampleService.handle 5 sampleUnderstated =
      sampleService.delivered 5 sampleUnderstated "abc".toUTF8 ∧
    sampleService.handle 5 sampleOverstated =
      (.ok (.detail 413 "Request body too large (max 1 MB)"), sampleService) := by
  have hunder : sampleUnderstated.Declares 1 := ⟨" +1 ", by decide +kernel, by decide +kernel⟩
  have hover : sampleOverstated.Declares 2000000 :=
    ⟨"2_000_000", by decide +kernel, by decide +kernel⟩
  have hlimit : limitOf sampleUnderstated.path = 25 := by decide +kernel
  have hother : limitOf sampleOverstated.path = 1 := by decide +kernel
  have hwithin : ¬ sampleUnderstated.Exceeds := by
    rintro (⟨n, hn, hexceeds⟩ | hexceeds)
    · have hsame : n = 1 := Request.Declares.unique hn hunder
      rw [hsame, hlimit] at hexceeds
      exact absurd hexceeds (by decide)
    · have hsize : sizeOf sampleUnderstated.chunks = 3 := by decide +kernel
      rw [hsize, hlimit] at hexceeds
      exact absurd hexceeds (by decide)
  obtain ⟨-, -, -, -, -, hdelivered, -⟩ :=
    handle_of_hasBody sampleService 5 (r := sampleUnderstated) (by decide)
  obtain ⟨-, -, -, -, hrefused, -, -⟩ :=
    handle_of_hasBody sampleService 5 (r := sampleOverstated) (by decide)
  rw [hother] at hrefused
  exact ⟨hdelivered (fun h => h.2 1 hunder) hwithin,
    hrefused (fun h => h.2 _ hover) (Or.inl ⟨_, hover, by decide +kernel⟩)⟩

end StylesheetTrace.Service
