import FuturesBot.Decision.Requests

namespace FuturesBot
open CallOutcome

variable {ω : Type}

namespace GptClient

/-- A content that the decoder does not take, or fails on with another error than its own. -/
def unreadable (c : GptClient ω) : JsonValue → Bool
  | .str text =>
    match c.loads text with
    | .ok _ | .error .jsonDecodeError => false
    | .error _ => true
  | .null | .bool _ | .int _ | .float _ | .array _ | .object _ => true

/-- The first choice of an answer is no object, or has a message that is none. Where it has a
content that is not cut short, that may be unreadable, or the usage be no object. -/
def misshapenChoice (c : GptClient ω) (usage : JsonValue) : JsonValue → Bool
  | .object choice =>
    match choice.lookup "message" with
    | none => false
    | some (.object message) =>
      match message.lookup "content" with
      | none => false
      | some content => !((choice.lookup "finish_reason").getD .null).isLength &&
          (!usage.isObject || c.unreadable content)
    | some _ => true
  | .null | .bool _ | .int _ | .float _ | .str _ | .array _ => true

/-- A body that is no object, has choices that are no list, or a misshapen first choice. An error
of the client is made of choices that are missing or empty, and of an object, as `0` is no key. -/
def misshapen (c : GptClient ω) : JsonValue → Bool
  | .object fields =>
    match fields.lookup "choices" with
    | none | some (.object _) | some (.array []) => false
    | some (.array (choice :: _)) =>
      c.misshapenChoice ((fields.lookup "usage").getD (.object [])) choice
    | some (.str text) => text ≠ ""
    | some _ => true
  | .null | .bool _ | .int _ | .float _ | .str _ | .array _ => true

/-- A success whose body does not decode or is misshapen. -/
def Malformed (c : GptClient ω) : CallOutcome → Prop
  | .response r => r.statusCode = 200 ∧ ∀ data, r.json = .ok data → c.misshapen data
  | .timeout | .requestError => False

instance (c : GptClient ω) : DecidablePred c.Malformed
  | .response r =>
    match hjson : r.json with
    | .ok data => decidable_of_iff (r.statusCode = 200 ∧ c.misshapen data) (by
        simp [Malformed, hjson])
    | .error _ => decidable_of_iff (r.statusCode = 200) (by simp [Malformed, hjson])
  | .timeout | .requestError => isFalse id

/-- An answer that is taken apart with an error nobody has a name for: in its body or envelope,
or in the text of the decision. -/
def Escapes (c : GptClient ω) (o : CallOutcome) : Prop :=
  (∃ e, o.result = .error (.unexpected e)) ∨
  ∃ raw e, o.result = .ok raw ∧ c.validateGptJsonString raw.content = .error e

theorem unreadable_iff (c : GptClient ω) (content : JsonValue) :
    (∃ e, c.validateGptJsonString content = .error e) ↔ c.unreadable content := by
  unfold validateGptJsonString unreadable
  cases content with
  | str text =>
    dsimp only
    rcases c.loads text with e | value
    · cases e <;> simp
    · cases value <;> simp
  | null | bool _ | int _ | float _ | array _ | object _ => simp

/-- The way to the content of an answer ends in an error without a name, in one with a name, or
at a content. -/
inductive WayToContent (c : GptClient ω) (data : JsonValue) : Prop
  | unnamed (h : contentOf data = .error (.unexpected .typeError)) (hshape : c.misshapen data)
  | named (h : contentOf data =
        .error (.gptClient (.client "Respuesta OpenAI con estructura inesperada")))
      (hshape : c.misshapen data = false)
  | content {fields choice : List (String × JsonValue)} {content : JsonValue}
      (hdata : data = .object fields) (h : contentOf data = .ok (.object choice, content))
      (hshape : c.misshapen data = (!((choice.lookup "finish_reason").getD .null).isLength &&
        (!((fields.lookup "usage").getD (.object [])).isObject || c.unreadable content)))

variable {c : GptClient ω}

/-- From the first choice on. -/
theorem wayFromChoice {fields : List (String × JsonValue)} {items : List JsonValue}
    (hchoices : fields.lookup "choices" = some (.array (choice :: items))) :
    c.WayToContent (.object fields) := by
  cases choice with
  | object choice =>
    rcases hmessage : choice.lookup "message" with _ | message
    · refine .named ?_ (by simp only [misshapen, misshapenChoice, hchoices, hmessage])
      simp only [contentOf, JsonValue.item, hchoices, JsonValue.first, hmessage, ok_bind]
      rfl
    cases message with
    | object message =>
      rcases hcontent : message.lookup "content" with _ | content
      · refine .named ?_ (by simp only [misshapen, misshapenChoice, hchoices, hmessage, hcontent])
        simp only [contentOf, JsonValue.item, hchoices, JsonValue.first, hmessage, hcontent,
          ok_bind]
        rfl
      · have hfound : contentOf (.object fields) = .ok (.object choice, content) := by
          simp only [contentOf, JsonValue.item, hchoices, JsonValue.first, hmessage, hcontent,
            ok_bind]
          rfl
        exact .content rfl hfound
          (by simp only [misshapen, misshapenChoice, hchoices, hmessage, hcontent])
    | null | bool _ | int _ | float _ | str _ | array _ =>
      refine .unnamed ?_ (by simp only [misshapen, misshapenChoice, hchoices, hmessage])
      simp only [contentOf, JsonValue.item, hchoices, JsonValue.first, hmessage, ok_bind]
      rfl
  | null | bool _ | int _ | float _ | str _ | array _ =>
    refine .unnamed ?_ (by simp only [misshapen, misshapenChoice, hchoices])
    simp only [contentOf, JsonValue.item, hchoices, JsonValue.first, ok_bind]
    rfl

theorem wayToContent (c : GptClient ω) (data : JsonValue) : c.WayToContent data := by
  cases data with
  | object fields =>
    rcases hchoices : fields.lookup "choices" with _ | choices
    · refine .named ?_ (by simp only [misshapen, hchoices])
      simp only [contentOf, JsonValue.item, hchoices]
      rfl
    cases choices with
    | array items =>
      rcases items with _ | ⟨choice, items⟩
      · refine .named ?_ (by simp only [misshapen, hchoices])
        simp only [contentOf, JsonValue.item, hchoices]
        rfl
      · exact wayFromChoice hchoices
    | str text =>
      -- The first character of a text is a text, which has no message.
      rcases htext : text.toList with _ | ⟨first, rest⟩
      · obtain rfl : text = "" := String.toList_eq_nil_iff.mp htext
        refine .named ?_ (by simp [misshapen, hchoices])
        simp only [contentOf, JsonValue.item, hchoices]
        rfl
      · have hne : text ≠ "" := by
          rintro rfl
          cases htext
        refine .unnamed ?_ (by simp [misshapen, hchoices, hne])
        simp only [contentOf, JsonValue.item, hchoices, JsonValue.first, htext, ok_bind]
        rfl
    | object _ =>
      refine .named ?_ (by simp only [misshapen, hchoices])
      simp only [contentOf, JsonValue.item, hchoices]
      rfl
    | null | bool _ | int _ | float _ =>
      refine .unnamed ?_ (by simp only [misshapen, hchoices])
      simp only [contentOf, JsonValue.item, hchoices]
      rfl
  | null | bool _ | int _ | float _ | str _ | array _ => exact .unnamed rfl rfl

/-- A usage that is an object has the counts or has them not; any other has no keys. -/
theorem envelope_escapes_iff {r : HttpResponse} (hjson : r.json = .ok data) :
    ((∃ e, extractEnvelope r = .error (.unexpected e)) ∨
      ∃ raw e, extractEnvelope r = .ok raw ∧ c.validateGptJsonString raw.content = .error e) ↔
    c.misshapen data := by
  unfold extractEnvelope
  rw [hjson, asUnexpected, Except.mapError, ok_bind]
  cases c.wayToContent data with
  | unnamed h hshape =>
    rw [h]
    exact iff_of_true (.inl ⟨_, rfl⟩) hshape
  | named h hshape =>
    rw [h]
    refine iff_of_false ?_ (by simp [hshape])
    rintro (⟨e, he⟩ | ⟨raw, e, hraw, -⟩)
    · cases he
    · cases hraw
  | @content fields choice content hdata h hshape =>
    subst hdata
    simp only [h, hshape, JsonValue.get, asUnexpected, Except.mapError, ok_bind]
    split
    · rename_i hlength
      simp only [hlength, Bool.not_true, Bool.false_and, Bool.false_eq_true, iff_false]
      rintro (⟨e, he⟩ | ⟨raw, e, hraw, -⟩)
      · cases he
      · cases hraw
    · rename_i hlength
      rw [Bool.not_eq_true] at hlength
      rw [hlength, Bool.not_false, Bool.true_and, Bool.or_eq_true, ← c.unreadable_iff]
      cases (fields.lookup "usage").getD (.object []) with
      | object counts =>
        simp only [ok_bind, JsonValue.isObject, Bool.not_true, Bool.false_eq_true, false_or]
        constructor
        · rintro (⟨e, he⟩ | ⟨raw, e, hraw, he⟩)
          · cases he
          · cases hraw
            exact ⟨e, he⟩
        · rintro ⟨e, he⟩
          exact .inr ⟨_, e, rfl, he⟩
      | null | bool _ | int _ | float _ | str _ | array _ =>
        exact iff_of_true (.inl ⟨_, rfl⟩) (.inl rfl)

/-- Only a success can escape, and it does just if it is malformed. -/
theorem escapes_iff_malformed (c : GptClient ω) (o : CallOutcome) :
    c.Escapes o ↔ c.Malformed o := by
  cases o with
  | timeout | requestError =>
    refine iff_of_false ?_ id
    rintro (⟨e, he⟩ | ⟨raw, e, hraw, -⟩)
    · cases he
    · cases hraw
  | response r =>
    by_cases hstatus : r.statusCode = 200
    · have hresult : CallOutcome.result (.response r) = extractEnvelope r := by
        simp [result, extractContent, hstatus]
      simp only [Escapes, hresult, Malformed, hstatus, true_and]
      rcases hjson : r.json with e | data
      · simp only [extractEnvelope, hjson]
        exact iff_of_true (.inl ⟨_, rfl⟩) (by simp)
      · rw [envelope_escapes_iff hjson]
        simp
    · refine iff_of_false ?_ fun h => hstatus h.1
      have hnamed : ∃ g, CallOutcome.result (.response r) = .error (.gptClient g) := by
        simp only [result, extractContent]
        split
        · exact ⟨_, rfl⟩
        split
        · exact ⟨_, rfl⟩
        split
        · exact ⟨_, rfl⟩
        · exact ⟨_, rfl⟩
      obtain ⟨g, hg⟩ := hnamed
      rintro (⟨e, he⟩ | ⟨raw, e, hraw, -⟩)
      · cases hg.symm.trans he
      · cases hg.symm.trans hraw

end GptClient

end FuturesBot
