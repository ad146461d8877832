import InferenceRouter.Routing.PrefixCache

/-! A conversation keeps its prefix. It grows at its end, and the prefix is taken
from its beginning; how a client writes the contents does not show. -/
namespace InferenceRouter

/-- The texts of the text parts; other parts have none. -/
def partTexts (parts : List Json) : List String :=
  parts.filterMap fun part => (part.get "text").bind Json.asStr

/-- The two ways to write a text as a content. -/
inductive Encodes (text : String) : Json → Prop where
  | string : Encodes text (.string text)
  | parts (parts : List Json) (hSome : partTexts parts ≠ [])
      (hText : " ".intercalate (partTexts parts) = text) : Encodes text (.array parts)

/-- The same message, up to how the text of its content is written. -/
inductive Reencoded (message : Json) : Json → Prop where
  | same : Reencoded message message
  | content {message' content content' : Json} (text : String) (hGet : message.get "content" = some content)
      (hGet' : message'.get "content" = some content') (hText : Encodes text content)
      (hText' : Encodes text content') : Reencoded message message'

/-- What a message adds to the text of a conversation. -/
def messageText (message : Json) : Option String := (message.get "content").bind contentText

/-- The texts of the messages joined by spaces. -/
def conversationText (messages : List Json) : String := " ".intercalate (messages.filterMap messageText)

theorem Encodes.contentText_eq {text : String} {content : Json} (h : Encodes text content) :
    contentText content = some text := by
  cases h with
  | string => rfl
  | parts parts hSome hText =>
      simp only [contentText, Json.asStr, Json.asArray]
      rw [← partTexts, if_neg (by rwa [List.isEmpty_iff]), hText]

theorem Reencoded.messageText_eq {message message' : Json} (h : Reencoded message message') :
    messageText message' = messageText message := by
  cases h with
  | same => rfl
  | content text hGet hGet' hText hText' =>
      rw [messageText, messageText, hGet, hGet', Option.bind_some, Option.bind_some, hText.contentText_eq,
        hText'.contentText_eq]

theorem conversationText_reencoded {messages messages' : List Json}
    (h : List.Forall₂ Reencoded messages messages') : conversationText messages' = conversationText messages := by
  have hTexts : messages'.filterMap messageText = messages.filterMap messageText := by
    induction h with
    | nil => rfl
    | cons hFirst _ ih => rw [List.filterMap_cons, List.filterMap_cons, hFirst.messageText_eq, ih]
  rw [conversationText, conversationText, hTexts]

/-- A separator comes only between two texts, so what follows is appended. -/
theorem conversationText_grows (messages more : List Json) :
    (conversationText messages).toList <+: (conversationText (messages ++ more)).toList := by
  rw [conversationText, conversationText, List.filterMap_append]
  generalize messages.filterMap messageText = texts
  generalize more.filterMap messageText = later
  by_cases hTexts : texts = []
  · rw [hTexts, String.intercalate_nil]
    exact List.nil_prefix
  · by_cases hLater : later = []
    · rw [hLater, List.append_nil]
    · rw [String.intercalate_append_of_ne_nil hTexts hLater, String.append_assoc, String.toList_append]
      exact List.prefix_append ..

namespace PrefixCacheAware

variable {self : PrefixCacheAware} {body body' : Json} {messages messages' more : List Json}

theorem extractPrefix_of_messages (hBody : body.get "messages" = some (.array messages)) :
    self.extractPrefix (some body) =
      String.ofList ((conversationText messages).toList.take self.prefixCharLimit) := by
  rw [extractPrefix_eq]
  simp only [requestText, hBody, Option.bind_some, Json.asArray]
  rfl

theorem extractPrefix_toList (hBody : body.get "messages" = some (.array messages)) :
    (self.extractPrefix (some body)).toList = (conversationText messages).toList.take self.prefixCharLimit := by
  rw [extractPrefix_of_messages hBody, String.toList_ofList]

theorem length_extractPrefix_le (hBody : body.get "messages" = some (.array messages)) :
    (self.extractPrefix (some body)).length ≤ self.prefixCharLimit := by
  rw [← String.length_toList, extractPrefix_toList hBody]
  exact List.length_take_le ..

theorem extractPrefix_reencoded (hBody : body.get "messages" = some (.array messages))
    (hBody' : body'.get "messages" = some (.array messages'))
    (hSame : List.Forall₂ Reencoded messages messages') :
    self.extractPrefix (some body') = self.extractPrefix (some body) := by
  rw [extractPrefix_of_messages hBody, extractPrefix_of_messages hBody', conversationText_reencoded hSame]

theorem extractPrefix_grows (hBody : body.get "messages" = some (.array messages))
    (hBody' : body'.get "messages" = some (.array (messages ++ more))) :
    (self.extractPrefix (some body)).toList <+: (self.extractPrefix (some body')).toList := by
  rw [extractPrefix_toList hBody, extractPrefix_toList hBody']
  exact (conversationText_grows messages more).take self.prefixCharLimit

/-- A prefix that is full does not grow. -/
theorem extractPrefix_eq_of_full (hBody : body.get "messages" = some (.array messages))
    (hBody' : body'.get "messages" = some (.array (messages ++ more)))
    (hFull : (self.extractPrefix (some body)).length = self.prefixCharLimit) :
    self.extractPrefix (some body') = self.extractPrefix (some body) := by
  rw [← String.toList_inj]
  refine ((extractPrefix_grows hBody hBody').eq_of_length_le ?_).symm
  rw [String.length_toList, String.length_toList, hFull]
  exact length_extractPrefix_le hBody'

theorem length_extractPrefix_of_le (hBody : body.get "messages" = some (.array messages))
    (hText : self.prefixCharLimit ≤ (conversationText messages).length) :
    (self.extractPrefix (some body)).length = self.prefixCharLimit := by
  rw [← String.length_toList, extractPrefix_toList hBody, List.length_take, String.length_toList]
  exact Nat.min_eq_left hText

/-- A growing conversation keeps its prefix, however its contents are written, and
with a prefix that is full it keeps its backend. -/
theorem conversation_keeps_prefix (self : PrefixCacheAware) {body : Json} {messages : List Json}
    (hBody : body.get "messages" = some (.array messages)) :
    self.extractPrefix (some body) =
      String.ofList ((conversationText messages).toList.take self.prefixCharLimit) ∧
    (self.extractPrefix (some body)).length ≤ self.prefixCharLimit ∧
    (∀ grown more, grown.get "messages" = some (.array (messages ++ more)) →
      (self.extractPrefix (some body)).toList <+: (self.extractPrefix (some grown)).toList ∧
      ((self.extractPrefix (some body)).length = self.prefixCharLimit →
        self.extractPrefix (some grown) = self.extractPrefix (some body))) ∧
    (∀ rewritten messages', rewritten.get "messages" = some (.array messages') →
      List.Forall₂ Reencoded messages messages' →
        self.extractPrefix (some rewritten) = self.extractPrefix (some body)) ∧
    (1 ≤ self.prefixCharLimit → self.prefixCharLimit ≤ (conversationText messages).length →
      ∀ (path path' : String) (later : Json) (messages' more : List Json),
        List.Forall₂ Reencoded messages messages' → later.get "messages" = some (.array (messages' ++ more)) →
        ∀ these those : List Backend, (∀ id, id ∈ ids these ↔ id ∈ ids those) →
          self.select ⟨path', some later⟩ these = self.select ⟨path, some body⟩ those ∧
          ∀ numBackends, self.ring = .new self.hashKey numBackends defaultVnodes →
            those ≠ [] → (∀ b ∈ those, b.id < numBackends) → (self.select ⟨path, some body⟩ those).isSome) := by
  refine ⟨extractPrefix_of_messages hBody, length_extractPrefix_le hBody,
    fun grown more hGrown => ⟨extractPrefix_grows hBody hGrown, extractPrefix_eq_of_full hBody hGrown⟩,
    fun rewritten messages' hRewritten => extractPrefix_reencoded hBody hRewritten, ?_⟩
  intro hLimit hText path path' later messages' more hSame hLater these those hIds
  -- The contents are rewritten first, in a body of their own, which then grows.
  obtain ⟨rewritten, hMiddle⟩ : ∃ rewritten : Json, rewritten.get "messages" = some (.array messages') :=
    ⟨.object [("messages", .array messages')], rfl⟩
  have hFull := length_extractPrefix_of_le hBody hText
  have hRewritten : self.extractPrefix (some rewritten) = self.extractPrefix (some body) :=
    extractPrefix_reencoded hBody hMiddle hSame
  have hKept : self.extractPrefix (some later) = self.extractPrefix (some body) :=
    (extractPrefix_eq_of_full hMiddle hLater (hRewritten ▸ hFull)).trans hRewritten
  have hPrefix : self.extractPrefix (some body) ≠ "" := by
    intro hEmpty
    rw [hEmpty, String.length_empty] at hFull
    omega
  refine ⟨select_congr hPrefix hKept hIds, fun numBackends hRing hNonempty hPool => ?_⟩
  obtain ⟨b, _, hSelect⟩ := select_some_of_ring hRing ⟨path, some body⟩ hNonempty hPool
  exact Option.isSome_iff_exists.mpr ⟨b.id, hSelect⟩

/-- A chat body with one user message. -/
def chatBody (contents : List Json) : Json :=
  .object [("model", .string "m"), ("messages", .array (contents.map fun content =>
    .object [("role", .string "user"), ("content", content)]))]

/-- The content "ab cd" as a string, then as two text parts around an image, with an answer
behind it. Five characters are a full prefix. -/
theorem conversation_keeps_prefix_parts :
    let self : PrefixCacheAware := ⟨fun key => ⟨key.size % wordSize, Nat.mod_lt _ (by decide)⟩, 5,
      .new (fun key => ⟨key.size % wordSize, Nat.mod_lt _ (by decide)⟩) 2 defaultVnodes⟩
    let part (text : String) : Json := .object [("type", .string "text"), ("text", .string text)]
    let image : Json := .object [("type", .string "image_url")]
    let backend (id : BackendId) : Backend := .new id "http://b" 1 (.new 0 (1 / 2) 10 10 30)
    let body := chatBody [.string "ab cd"]
    let later := chatBody [.array [part "ab", image, part "cd"], .null, .string "ef"]
    self.extractPrefix (some body) = "ab cd" ∧
      self.select ⟨"/v1/chat/completions", some later⟩ [backend 0, backend 1] =
        self.select ⟨"/v1/chat/completions", some body⟩ [backend 0, backend 1] ∧
      (self.select ⟨"/v1/chat/completions", some body⟩ [backend 0, backend 1]).isSome := by
  intro self part image backend body later
  have hBody : body.get "messages" = some (.array [.object [("role", .string "user"),
    ("content", .string "ab cd")]]) := rfl
  obtain ⟨hPrefix, _, _, _, hKept⟩ := conversation_keeps_prefix self hBody
  have hSame : Reencoded (.object [("role", .string "user"), ("content", .string "ab cd")])
      (.object [("role", .string "user"), ("content", .array [part "ab", image, part "cd"])]) :=
    .content "ab cd" rfl rfl .string (.parts _ (List.cons_ne_nil _ _) (by decide +kernel))
  obtain ⟨hSelect, hSome⟩ := hKept (by decide) (by decide +kernel) "/v1/chat/completions"
    "/v1/chat/completions" later _ [.object [("role", .string "user"), ("content", .null)],
      .object [("role", .string "user"), ("content", .string "ef")]] (.cons hSame .nil) rfl
    [backend 0, backend 1] [backend 0, backend 1] fun _ => Iff.rfl
  refine ⟨?_, hSelect, hSome 2 rfl (List.cons_ne_nil _ _) (by simp [backend, Backend.new])⟩
  rw [hPrefix]
  decide +kernel

end PrefixCacheAware

end InferenceRouter
