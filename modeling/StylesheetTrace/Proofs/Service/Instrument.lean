import StylesheetTrace.Proofs.Service.Refusal
import StylesheetTrace.Proofs.Stylesheet.MarkerCount

/-!
# The number of markers in a response

The service answers a request to instrument a stylesheet with the instrumented text and a number of
markers. The number is that of the places at which the sentinel and a bar stand in the text. So it
is the number of the inserted markers when these are all such places, and only then
(`countsMarkers_of_handle`).
-/

namespace StylesheetTrace.Service

open StylesheetTrace.Text StylesheetTrace.Validation StylesheetTrace.Stylesheet

/-- The stylesheet that the body of a request holds, if it can be read and holds one. -/
def asked? (r : Request) : Option InstrumentRequest :=
  match takeBody r with
  | .error _ => none
  | .ok bytes =>
    match Body.read r bytes with
    | .error _ => none
    | .ok b =>
      match b.record instrumentForm with
      | .valid q => some q
      | .faulty _ => none

section

variable {s s' : Service} {now : Int} {r : Request} {response : Response}

/-- Only a request with the method `POST` instruments a stylesheet. -/
theorem method_of_instrument (h : Routing.of r.method r.path = .endpoint .instrument) :
    r.method = "POST" := by
  unfold Routing.of at h
  split at h
  · rename_i resource _
    cases hendpoint : resource.endpoint? r.method with
    | none =>
      rw [hendpoint] at h
      exact absurd h (by simp)
    | some e =>
      rw [hendpoint] at h
      obtain rfl : e = .instrument := Routing.endpoint.inj h
      unfold Resource.endpoint? at hendpoint
      split at hendpoint <;> simp_all
  · split at h
    · exact absurd h (by simp)
    · exact absurd h (by simp)

/-- A response is sent to the method `POST` as it was made. -/
theorem eq_of_written {made : Response} (hmethod : r.method = "POST")
    (h : (written made).map (shownTo r) = .ok response) : made = response := by
  obtain ⟨sent, hsent, rfl⟩ := map_eq_ok.mp h
  have hshown : shownTo r sent = sent := if_neg (by rw [hmethod]; decide)
  rw [hshown]
  unfold written at hsent
  split at hsent
  · exact Except.ok.inj hsent
  · exact absurd hsent (by simp)

/-- A stylesheet is answered with the status 200 by its instrumented text and the number of places
at which the sentinel and a bar stand in it. -/
theorem instrument_eq_ok {q : InstrumentRequest} (h : s.instrument q = (.ok response, s'))
    (hok : response.status = 200) : ∃ text,
      Stylesheet.instrument s.settings.sentinel q.file q.content = .ok text ∧
      response = .json 200 (.obj [("instrumented", .str text),
        ("marker_count", .nat (occurrences (markerHead s.settings.sentinel) text.toList))]) := by
  unfold instrument at h
  split at h
  · obtain rfl := Except.ok.inj (Prod.mk.inj h).1
    exact absurd hok (by decide : 422 ≠ 200)
  · rename_i text htext
    exact ⟨text, htext, (Except.ok.inj (Prod.mk.inj h).1).symm⟩

/-- A request to instrument a stylesheet is answered, once its body was taken, by what its body
asks for. -/
theorem route_of_instrument (hroute : Routing.of r.method r.path = .endpoint .instrument)
    (bytes : ByteArray) : s.route now r bytes =
      match Body.read r bytes with
      | .error response => s.reply response
      | .ok b => s.withRecord b (b.record instrumentForm) s.instrument := by
  unfold route
  rw [hroute]
  rfl

/-- The status 200 comes with a stylesheet that the body holds and that can be instrumented. -/
theorem route_eq_ok (hroute : Routing.of r.method r.path = .endpoint .instrument)
    {bytes : ByteArray} (h : (s.route now r bytes).1 = .ok response) (hok : response.status = 200) :
    ∃ b q text, Body.read r bytes = .ok b ∧ b.record instrumentForm = .valid q ∧
      Stylesheet.instrument s.settings.sentinel q.file q.content = .ok text ∧
      response = .json 200 (.obj [("instrumented", .str text),
        ("marker_count", .nat (occurrences (markerHead s.settings.sentinel) text.toList))]) := by
  rw [route_of_instrument hroute] at h
  split at h
  · rename_i refusal hread
    obtain rfl := Except.ok.inj h
    rcases isError_of_read hread with h | h <;> exact absurd (h.symm.trans hok) (by decide)
  · rename_i b hread
    unfold withRecord at h
    split at h
    · unfold withChecked at h
      split at h
      · rename_i q hrecord
        obtain ⟨text, htext, hresponse⟩ := instrument_eq_ok (Prod.ext h rfl) hok
        exact ⟨b, q, text, hread, hrecord, htext, hresponse⟩
      · obtain rfl := Except.ok.inj h
        exact absurd hok (by decide : 422 ≠ 200)
    · exact absurd h (by simp)

/-- In the response to a request to instrument a stylesheet, if it is one of success, the number of
markers is made up of the places in the stylesheet at which the sentinel and a bar stand, and of the
shares of the inserted lines. Left out are the requests whose texts hold one of the unassigned code
points from U+DD800 to U+DDFFF: such a code point stands in for half of a surrogate pair
(`halfPair?`), so that the response with it counts as one that can not be written. What is said of the
instrumented text and of the number holds for their stylesheets too (`countsMarkers_of_instrument`). -/
theorem countsMarkers_of_handle (hroute : Routing.of r.method r.path = .endpoint .instrument)
    (h : s.handle now r = (.ok response, s')) (hok : response.status = 200) :
    ∃ q text count, asked? r = some q ∧
      Stylesheet.instrument s.settings.sentinel q.file q.content = .ok text ∧
      response = .json 200 (.obj [("instrumented", .str text), ("marker_count", .nat count)]) ∧
      CountsMarkers s.settings.sentinel q.file q.content text count := by
  have hmethod := method_of_instrument hroute
  rcases handle_cases s now r with ⟨e, -, hhandle⟩ | ⟨bytes, hbytes, hhandle⟩
  · rw [hhandle] at h
    obtain rfl := eq_of_written hmethod (Prod.mk.inj h).1
    cases e with
    | badSize => exact absurd hok (by decide)
    | tooLarge limit => exact absurd hok (by decide : 413 ≠ 200)
  · rw [hhandle] at h
    cases hanswer : (s.route now r bytes).1 with
    | error e =>
      rw [hanswer] at h
      exact absurd (Prod.mk.inj h).1 (by simp [Except.map, bind, Except.bind])
    | ok made =>
      rw [hanswer] at h
      obtain rfl : made = response := eq_of_written hmethod (Prod.mk.inj h).1
      obtain ⟨b, q, text, hread, hrecord, htext, hresponse⟩ := route_eq_ok hroute hanswer hok
      have hasked : asked? r = some q := by
        unfold asked?
        rw [hbytes]
        dsimp only
        rw [hread]
        dsimp only
        rw [hrecord]
      exact ⟨q, text, _, hasked, htext, hresponse, countsMarkers_of_instrument htext⟩

end

/-- A request to instrument a stylesheet without elements, in which a comment quotes a marker. -/
def sampleQuoting : Request :=
  ⟨"POST", "/instrument", [("content-type", "application/json")],
    ["\x7b\"content\": \"<!--TRACE|-->\", \"program_file\": \"a.xsl\"\x7d".toUTF8]⟩

/-- No marker is inserted there, and the number in the response is not zero. -/
theorem countsMarkers_of_handle_sampleQuoting :
    ∃ response s' q text count, sampleService.handle 5 sampleQuoting = (.ok response, s') ∧
      asked? sampleQuoting = some q ∧ marks q.content.toList = [] ∧
      response = .json 200 (.obj [("instrumented", .str text), ("marker_count", .nat count)]) ∧
      count ≠ 0 := by
  have hasked : asked? sampleQuoting = some ⟨"<!--TRACE|-->", "a.xsl"⟩ := by decide +kernel
  have hstatus : (sampleService.handle 5 sampleQuoting).1.toOption.map Response.status =
      some 200 := by decide +kernel
  cases hanswer : sampleService.handle 5 sampleQuoting with
  | mk answer s' =>
    rw [hanswer] at hstatus
    cases answer with
    | error e => exact absurd hstatus (by simp [Except.toOption])
    | ok response =>
      have hok : response.status = 200 := Option.some.inj hstatus
      have hroute : Routing.of sampleQuoting.method sampleQuoting.path = .endpoint .instrument := by
        decide +kernel
      have hsentinel : sampleService.settings.sentinel = "TRACE" := by decide +kernel
      obtain ⟨q, text, count, hq, -, hresponse, hcounts⟩ :=
        countsMarkers_of_handle hroute hanswer hok
      obtain rfl := Option.some.inj (hasked.symm.trans hq)
      rw [hsentinel] at hcounts
      have hmarks : marks "<!--TRACE|-->".toList = [] := by decide +kernel
      have hquoted : markerHead "TRACE" <:+: ['\n'].intercalate (lines "<!--TRACE|-->".toList) :=
        ⟨"<!--".toList, "-->".toList, by decide +kernel⟩
      refine ⟨response, s', _, text, count, rfl, hasked, hmarks, hresponse, fun hzero => ?_⟩
      have hiff := hcounts.count_eq_iff (by decide +kernel) (by decide +kernel)
      rw [hmarks, hzero] at hiff
      exact (hiff.mp rfl).1 hquoted

end StylesheetTrace.Service
