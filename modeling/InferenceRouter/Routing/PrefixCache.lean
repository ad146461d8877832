import InferenceRouter.Routing.Basic
import InferenceRouter.Routing.Ring

/-! Routing by prompt prefix. Requests with one prefix go to one backend, and
the set of routable backends moves only the prefixes it has to. -/
namespace InferenceRouter

def defaultVnodes : Nat := 128

structure PrefixCacheAware where
  hashKey : Hasher
  prefixCharLimit : Nat
  ring : HashRing

/-- The text of a chat message's `content`: a string, or the text parts of an
array joined by spaces. None when there is no text at all. -/
def contentText (content : Json) : Option String :=
  match content.asStr with
  | some text => some text
  | none =>
      match content.asArray with
      | none => none
      | some items =>
          let parts := items.filterMap fun part => (part.get "text").bind Json.asStr
          if parts.isEmpty then none else some (" ".intercalate parts)

/-- The whole text of a request, of which the prefix is taken. -/
def requestText (body : Option Json) : String :=
  match body with
  | none => ""
  | some body =>
      match (body.get "messages").bind Json.asArray with
      | some messages =>
          " ".intercalate (messages.filterMap fun message => (message.get "content").bind contentText)
      | none => ((body.get "prompt").bind Json.asStr).getD ""

namespace PrefixCacheAware

/-- A token is taken to be 4 characters; the product is a 64-bit one. -/
def new (hashKey : Hasher) (prefixTokenCount numBackends : Nat) : PrefixCacheAware where
  hashKey := hashKey
  prefixCharLimit := prefixTokenCount * 4 % wordSize
  ring := .new hashKey numBackends defaultVnodes

def extractPrefix (self : PrefixCacheAware) (body : Option Json) : String :=
  match body with
  | none => ""
  | some body =>
      match (body.get "messages").bind Json.asArray with
      | some messages =>
          let texts := messages.filterMap fun message => (message.get "content").bind contentText
          String.ofList ((" ".intercalate texts).toList.take self.prefixCharLimit)
      | none =>
          match (body.get "prompt").bind Json.asStr with
          | some prompt => String.ofList (prompt.toList.take self.prefixCharLimit)
          | none => ""

def select (self : PrefixCacheAware) (request : IncomingRequest) (routable : List Backend) :
    Option BackendId :=
  if routable.isEmpty then none
  else
    let key := self.extractPrefix request.body
    if key.isEmpty then (minByKey Backend.activeConnections routable).map Backend.id
    else self.ring.lookup (self.hashKey key.toUTF8) fun id => routable.any fun b => b.id = id

theorem extractPrefix_eq (self : PrefixCacheAware) (body : Option Json) :
    self.extractPrefix body = String.ofList ((requestText body).toList.take self.prefixCharLimit) := by
  cases body with
  | none => simp [extractPrefix, requestText]
  | some body =>
      cases hMessages : (body.get "messages").bind Json.asArray with
      | some messages => simp [extractPrefix, requestText, hMessages]
      | none =>
          cases hPrompt : (body.get "prompt").bind Json.asStr with
          | some prompt => simp [extractPrefix, requestText, hMessages, hPrompt]
          | none => simp [extractPrefix, requestText, hMessages, hPrompt]

/-- With room for a character, only an empty text has an empty prefix. -/
theorem extractPrefix_ne_empty {self : PrefixCacheAware} {body : Option Json}
    (hLimit : 0 < self.prefixCharLimit) (hText : requestText body ≠ "") : self.extractPrefix body ≠ "" := by
  rw [extractPrefix_eq]
  intro hEmpty
  have hTake := congrArg String.toList hEmpty
  simp only [String.toList_ofList, String.toList_empty, List.take_eq_nil_iff, String.toList_eq_nil_iff] at hTake
  rcases hTake with hZero | hNone
  · omega
  · exact hText hNone

theorem extractPrefix_eq_empty {self : PrefixCacheAware} (hLimit : self.prefixCharLimit = 0)
    (body : Option Json) : self.extractPrefix body = "" := by
  rw [extractPrefix_eq, hLimit]
  rfl

/-- With a prefix, the ring decides. -/
theorem select_eq_lookup {self : PrefixCacheAware} {request : IncomingRequest}
    (hPrefix : self.extractPrefix request.body ≠ "") (routable : List Backend) :
    self.select request routable =
      self.ring.lookup (self.hashKey (self.extractPrefix request.body).toUTF8)
        fun id => decide (id ∈ ids routable) := by
  have hAdmits : (fun id => routable.any fun b => decide (b.id = id)) =
      fun id => decide (id ∈ ids routable) := by
    funext id
    simp [ids, List.any_eq]
  have hNonempty : (self.extractPrefix request.body).isEmpty = false := by
    rw [Bool.eq_false_iff, Ne, String.isEmpty_iff]
    exact hPrefix
  simp only [select, hAdmits, hNonempty]
  cases routable with
  | nil =>
      rw [HashRing.lookup_eq]
      simp [ids]
  | cons first rest => rfl

/-- So the prefix and the set of routable backends decide. -/
theorem select_congr {self : PrefixCacheAware} {request request' : IncomingRequest}
    {these those : List Backend} (hPrefix : self.extractPrefix request.body ≠ "")
    (hSame : self.extractPrefix request'.body = self.extractPrefix request.body)
    (hIds : ∀ id, id ∈ ids these ↔ id ∈ ids those) :
    self.select request' these = self.select request those := by
  rw [select_eq_lookup hPrefix, select_eq_lookup (hSame ▸ hPrefix), hSame]
  simp only [hIds]

theorem select_mem {self : PrefixCacheAware} {request : IncomingRequest} {routable : List Backend}
    {id : BackendId} (hPrefix : self.extractPrefix request.body ≠ "")
    (h : self.select request routable = some id) : id ∈ ids routable := by
  rw [select_eq_lookup hPrefix] at h
  simpa using HashRing.lookup_routable h

/-- A prefix that may stay stays. -/
theorem select_of_subset {self : PrefixCacheAware} {request : IncomingRequest}
    {fewer more : List Backend} {id : BackendId} (hPrefix : self.extractPrefix request.body ≠ "")
    (hSub : ids fewer ⊆ ids more) (hId : id ∈ ids fewer) (h : self.select request more = some id) :
    self.select request fewer = some id := by
  rw [select_eq_lookup hPrefix] at h ⊢
  exact HashRing.lookup_of_subset (by simpa using fun id hFewer => hSub hFewer) h (by simpa using hId)

/-- Taking a backend away moves the prefixes that were on it, and no others. -/
theorem select_without_iff {self : PrefixCacheAware} {request : IncomingRequest}
    (hPrefix : self.extractPrefix request.body ≠ "") (routable : List Backend) (gone : BackendId) :
    self.select request (routable.filter fun b => b.id ≠ gone) ≠ self.select request routable ↔
      self.select request routable = some gone := by
  have hIds : ∀ id, id ∈ ids (routable.filter fun b => b.id ≠ gone) ↔ id ∈ ids routable ∧ id ≠ gone := by
    intro id
    simp only [ids, List.mem_map, List.mem_filter, decide_eq_true_eq]
    constructor
    · rintro ⟨b, ⟨hMem, hNe⟩, rfl⟩
      exact ⟨⟨b, hMem, rfl⟩, hNe⟩
    · rintro ⟨⟨b, hMem, rfl⟩, hNe⟩
      exact ⟨b, ⟨hMem, hNe⟩, rfl⟩
  constructor
  · intro hMoved
    by_contra hElsewhere
    apply hMoved
    cases hSelect : self.select request routable with
    | some id =>
        have hNe : id ≠ gone := fun hEq => hElsewhere (hEq ▸ hSelect)
        exact select_of_subset hPrefix (fun id h => ((hIds id).mp h).1)
          ((hIds id).mpr ⟨select_mem hPrefix hSelect, hNe⟩) hSelect
    | none =>
        rw [← Option.not_isSome_iff_eq_none, select_eq_lookup hPrefix, HashRing.lookup_isSome_iff] at hSelect ⊢
        rintro ⟨point, hPoint, hRoutable⟩
        exact hSelect ⟨point, hPoint, decide_eq_true ((hIds _).mp (of_decide_eq_true hRoutable)).1⟩
  · intro hGone hSame
    have hMem := select_mem hPrefix (hSame.trans hGone)
    exact ((hIds gone).mp hMem).2 rfl

/-- A pool with a routable backend is never refused, with a prefix or without. -/
theorem select_some_of_ring {self : PrefixCacheAware} {numBackends : Nat}
    (hRing : self.ring = .new self.hashKey numBackends defaultVnodes) (request : IncomingRequest)
    {routable : List Backend} (hNonempty : routable ≠ []) (hPool : ∀ b ∈ routable, b.id < numBackends) :
    ∃ b ∈ routable, self.select request routable = some b.id := by
  by_cases hPrefix : self.extractPrefix request.body = ""
  · obtain ⟨b, hPicked, hLeast⟩ := minByKey_firstLeast Backend.activeConnections hNonempty
    exact ⟨b, hLeast.mem, by simp [select, hPrefix, hNonempty, hPicked]⟩
  · obtain ⟨first, hFirst⟩ := List.exists_mem_of_ne_nil routable hNonempty
    have hMem : first.id ∈ ids routable := List.mem_map_of_mem hFirst
    obtain ⟨point, hPoint, hId⟩ := (HashRing.exists_mem_points_new_iff self.hashKey numBackends
      defaultVnodes first.id).mpr ⟨hPool first hFirst, by decide⟩
    have hSome : (self.select request routable).isSome := by
      rw [select_eq_lookup hPrefix, HashRing.lookup_isSome_iff, hRing]
      exact ⟨point, hPoint, decide_eq_true (hId ▸ hMem)⟩
    obtain ⟨id, hSelect⟩ := Option.isSome_iff_exists.mp hSome
    obtain ⟨b, hRoutable, rfl⟩ := List.mem_map.mp (select_mem hPrefix hSelect)
    exact ⟨b, hRoutable, hSelect⟩

theorem select_some (hashKey : Hasher) (prefixTokenCount numBackends : Nat) (request : IncomingRequest)
    {routable : List Backend} (hNonempty : routable ≠ []) (hPool : ∀ b ∈ routable, b.id < numBackends) :
    ∃ b ∈ routable, (new hashKey prefixTokenCount numBackends).select request routable = some b.id :=
  select_some_of_ring rfl request hNonempty hPool

/-- Affinity: the routable set moves a prefix only off a backend that is not
routable. So the set and the prefix decide, a backend that goes takes its own
prefixes along and no others, and a pool with a routable backend is never refused. -/
theorem affinity (hashKey : Hasher) (prefixTokenCount numBackends : Nat) (request : IncomingRequest)
    (hPrefix : (new hashKey prefixTokenCount numBackends).extractPrefix request.body ≠ "") :
    let self := new hashKey prefixTokenCount numBackends
    (∀ fewer more : List Backend, ids fewer ⊆ ids more → ∀ id ∈ ids fewer,
      self.select request more = some id → self.select request fewer = some id) ∧
    (∀ (request' : IncomingRequest) (these those : List Backend),
      self.extractPrefix request'.body = self.extractPrefix request.body →
      (∀ id, id ∈ ids these ↔ id ∈ ids those) →
        self.select request' these = self.select request those) ∧
    (∀ (routable : List Backend) (gone : BackendId),
      self.select request (routable.filter fun b => b.id ≠ gone) ≠ self.select request routable ↔
        self.select request routable = some gone) ∧
    (∀ routable : List Backend, routable ≠ [] → (∀ b ∈ routable, b.id < numBackends) →
      (self.select request routable).isSome) := by
  intro self
  refine ⟨fun fewer more hSub id hId => select_of_subset hPrefix hSub hId,
    fun request' these those => select_congr hPrefix, select_without_iff hPrefix,
    fun routable hNonempty hPool => ?_⟩
  obtain ⟨b, _, hSelect⟩ := select_some hashKey prefixTokenCount numBackends request hNonempty hPool
  exact Option.isSome_iff_exists.mpr ⟨b.id, hSelect⟩

/-- Two backends are routable, then only the first, for the prompt "hello". -/
theorem affinity_hello :
    let hashKey : Hasher := fun key => ⟨key.size % wordSize, Nat.mod_lt _ (by decide)⟩
    let self := new hashKey 256 2
    let backend (id : BackendId) : Backend := .new id "http://b" 1 (.new 0 (1 / 2) 10 10 30)
    let request : IncomingRequest := ⟨"/v1/completions", some (.object [("prompt", .string "hello")])⟩
    (self.select request [backend 0, backend 1] = some 0 → self.select request [backend 0] = some 0) ∧
      (self.select request [backend 0, backend 1]).isSome := by
  intro hashKey self backend request
  have hPrefix : self.extractPrefix request.body ≠ "" := by decide +kernel
  obtain ⟨hStays, _, _, hSome⟩ := affinity hashKey 256 2 request hPrefix
  refine ⟨hStays _ _ (by simp [ids, backend]) 0 (by simp [ids, backend, Backend.new]), hSome _ (by simp) ?_⟩
  simp [backend, Backend.new]

end PrefixCacheAware

end InferenceRouter
