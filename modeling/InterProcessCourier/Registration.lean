import InterProcessCourier.Precedence
import InterProcessCourier.SyncClient
import InterProcessCourier.SyncServer
import InterProcessCourier.TestProto

/-!
# What a history of registrations leaves behind

Client and server register by separate code: the server looks a name up among its handlers and
writes two maps, the client looks it up among its pairs, writes one map, and lets every
registration through when it validates by reflection. The abstract registry of both is a history
of bindings read with a precedence, `SyncServer.ofHistory` and `SyncClient.ofHistory`. Each
registration call appends one binding to the history, and its outcome depends on the history alone.

## Main results

* `callAll_registerHandler`, `callAll_registerRequestResponsePair` — the code refines the histories
* `registration_agrees` — the two sides have one semantics
* `typeSafe_iff` — when the server's two maps and its handlers' types stay in step
-/

namespace InterProcessCourier

open Precedence

/-! ### Outcomes -/

/-- What a registration gives back when these names are taken. -/
def registrationOutcome (strategy : DuplicateRequestResponsePairRegistrationStrategy)
    (taken : List Bytes) (pair : Bytes × Bytes) : Except Exception Bool :=
  if pair.1 ∈ taken then strategy.onDuplicate pair.1 pair.2 else .ok true

/-- What a history of registrations gives back, one by one. -/
def registrationOutcomes (strategy : DuplicateRequestResponsePairRegistrationStrategy) :
    List Bytes → List (Bytes × Bytes) → List (Except Exception Bool)
  | _, [] => []
  | taken, pair :: pairs =>
    registrationOutcome strategy taken pair ::
      registrationOutcomes strategy (taken ++ [pair.1]) pairs

/-- A name that is never registered may be taken or not. -/
theorem registrationOutcomes_cons_of_notMem
    (strategy : DuplicateRequestResponsePairRegistrationStrategy) {name : Bytes}
    (taken : List Bytes) {pairs : List (Bytes × Bytes)} (h : ∀ pair ∈ pairs, pair.1 ≠ name) :
    registrationOutcomes strategy (name :: taken) pairs =
      registrationOutcomes strategy taken pairs := by
  induction pairs generalizing taken with
  | nil => rfl
  | cons pair pairs ih =>
    have hne := h pair (by simp)
    rw [registrationOutcomes, registrationOutcomes, List.cons_append,
      ih _ fun p hp => h p (by simp [hp])]
    simp [registrationOutcome, hne]

/-! ### The client -/

namespace SyncClient

/-- Whether the client lets every registration through. -/
def reflects (options : SyncClientOptions) : Bool :=
  options.validateReqResPairStrategy = .serverReflection

/-- Whether the newest registration of a name counts. -/
def overrides (options : SyncClientOptions) : Bool :=
  options.duplicateRegistrationStrategy.overrides || reflects options

/-- The client after a history of pairs. -/
def ofHistory (options : SyncClientOptions) (h : List (Bytes × Bytes)) : SyncClient where
  clientOptions := options
  requestResponsePairs := fill (overrides options) h

variable {options : SyncClientOptions}

theorem lookup_ofHistory (h : List (Bytes × Bytes)) (name : Bytes) :
    (ofHistory options h).requestResponsePairs.lookup name = effective (overrides options) h name :=
  lookup_fill ..

theorem lookup_isSome_iff (options : SyncClientOptions) (h : List (Bytes × Bytes)) (name : Bytes) :
    ((ofHistory options h).requestResponsePairs.lookup name).isSome ↔ name ∈ h.map Prod.fst :=
  lookup_fill_isSome_iff ..

theorem ofHistory_concat (h : List (Bytes × Bytes)) (pair : Bytes × Bytes) :
    ofHistory options (h ++ [pair]) =
      if pair.1 ∈ h.map Prod.fst ∧ overrides options = false then ofHistory options h
      else registerValidatedRequestResponsePair pair.1 pair.2 (ofHistory options h) := by
  have hkeys := lookup_isSome_iff options h pair.1
  have hput : ofHistory options (h ++ [pair]) =
      { clientOptions := options
        requestResponsePairs := put (overrides options)
          (ofHistory options h).requestResponsePairs pair.1 pair.2 } := by
    simp [ofHistory, fill_concat]
  rw [hput]
  simp only [put, hkeys]
  split_ifs <;> rfl

variable [Protobuf]

/-- The pair that a registration of two types binds. -/
abbrev pair (RequestType ResponseType : Descriptor) : Bytes × Bytes :=
  (fullName RequestType, fullName ResponseType)

/-- **One registration on the client.** -/
theorem registerRequestResponsePair_ofHistory (h : List (Bytes × Bytes))
    (RequestType ResponseType : Descriptor) :
    registerRequestResponsePair RequestType ResponseType (ofHistory options h) =
      (if reflects options then .ok true
        else registrationOutcome options.duplicateRegistrationStrategy (h.map Prod.fst)
          (pair RequestType ResponseType),
        ofHistory options (h ++ [pair RequestType ResponseType])) := by
  have hkeys := lookup_isSome_iff options h (fullName RequestType)
  have hoptions : (ofHistory options h).clientOptions = options := rfl
  rw [ofHistory_concat, registrationOutcome]
  by_cases hreflects : options.validateReqResPairStrategy = .serverReflection
  · simp [registerRequestResponsePair, hoptions, hreflects, overrides, reflects]
  · by_cases hmem : fullName RequestType ∈ h.map Prod.fst
    · simp only [registerRequestResponsePair, hkeys.mpr hmem, hoptions, hreflects, ne_eq,
        not_false_eq_true, and_self, if_true, registerDuplicateRequestResponsePair,
        registerDuplicateRequestResponsePair_eq, overrides, reflects, decide_false,
        Bool.or_false, hmem, true_and, Bool.false_eq_true, if_false]
      cases options.duplicateRegistrationStrategy.overrides <;> rfl
    · simp only [registerRequestResponsePair, hkeys, hmem, false_and, if_false, reflects,
        hreflects, decide_false, Bool.false_eq_true]

/-- A registration that does not count changes nothing. -/
theorem registerRequestResponsePair_unchanged {h : List (Bytes × Bytes)}
    {RequestType : Descriptor} (ResponseType : Descriptor)
    (hmem : fullName RequestType ∈ h.map Prod.fst) (hoverrides : overrides options = false) :
    (registerRequestResponsePair RequestType ResponseType (ofHistory options h)).2 =
      ofHistory options h := by
  rw [registerRequestResponsePair_ofHistory]
  exact (ofHistory_concat ..).trans (if_pos ⟨hmem, hoverrides⟩)

/-- **The client refines its history.** -/
theorem callAll_registerRequestResponsePair (hreflects : reflects options = false)
    (h : List (Bytes × Bytes)) (types : List (Descriptor × Descriptor)) :
    callAll (types.map fun t => registerRequestResponsePair t.1 t.2) (ofHistory options h) =
      (registrationOutcomes options.duplicateRegistrationStrategy (h.map Prod.fst)
        (types.map fun t => pair t.1 t.2),
        ofHistory options (h ++ types.map fun t => pair t.1 t.2)) := by
  induction types generalizing h with
  | nil => simp [registrationOutcomes]
  | cons t types ih =>
    rw [List.map_cons, callAll, registerRequestResponsePair_ofHistory, ih]
    simp [registrationOutcomes, hreflects]

end SyncClient

section Agreement

variable [Protobuf] {σ : Type}

/-- The names a handler is registered under. -/
abbrev GenericHandler.pair (g : GenericHandler σ) : Bytes × Bytes := (g.requestName, g.responseName)

/-! ### The server -/

namespace SyncServer

/-- The server after a history of registrations, the constructor's own among them. -/
def ofHistory (strategy : DuplicateRequestResponsePairRegistrationStrategy)
    (h : List (GenericHandler σ)) : SyncServer σ where
  duplicateRegistrationStrategy := strategy
  handlers := fill strategy.overrides (h.map fun g => (g.requestName, g))
  requestResponsePairs := fill strategy.overrides (h.map GenericHandler.pair)

/-- What the constructor registers. -/
def reflection : GenericHandler σ :=
  ⟨MappingReflectionRequest, MappingReflectionResponse, reflectionHandler⟩

variable {strategy : DuplicateRequestResponsePairRegistrationStrategy}

@[simp] theorem ofHistory_strategy (h : List (GenericHandler σ)) :
    (ofHistory strategy h).duplicateRegistrationStrategy = strategy := rfl

theorem lookup_handlers_ofHistory (h : List (GenericHandler σ)) (name : Bytes) :
    (ofHistory strategy h).handlers.lookup name =
      effective strategy.overrides (h.map fun g => (g.requestName, g)) name :=
  lookup_fill ..

theorem lookup_requestResponsePairs_ofHistory (h : List (GenericHandler σ)) (name : Bytes) :
    (ofHistory strategy h).requestResponsePairs.lookup name =
      effective strategy.overrides (h.map GenericHandler.pair) name :=
  lookup_fill ..

/-- The pairs of the server are those of its handlers. -/
theorem lookup_requestResponsePairs_eq (h : List (GenericHandler σ)) (name : Bytes) :
    (ofHistory strategy h).requestResponsePairs.lookup name =
      ((ofHistory strategy h).handlers.lookup name).map GenericHandler.responseName := by
  rw [lookup_requestResponsePairs_ofHistory, lookup_handlers_ofHistory, ← effective_map,
    List.map_map]
  rfl

theorem lookup_handlers_isSome_iff
    (strategy : DuplicateRequestResponsePairRegistrationStrategy) (h : List (GenericHandler σ))
    (name : Bytes) :
    ((ofHistory strategy h).handlers.lookup name).isSome ↔
      name ∈ h.map GenericHandler.requestName := by
  rw [lookup_handlers_ofHistory, effective_isSome_iff, List.map_map]
  rfl

/-- A stored handler was registered, and is stored under the name of its request type. -/
theorem mem_of_lookup_handlers {h : List (GenericHandler σ)} {name : Bytes} {g : GenericHandler σ}
    (hg : (ofHistory strategy h).handlers.lookup name = some g) : g ∈ h ∧ g.requestName = name := by
  rw [lookup_handlers_ofHistory] at hg
  obtain ⟨g', hg', heq⟩ := List.mem_map.mp (mem_of_effective hg)
  obtain ⟨rfl, rfl⟩ := Prod.mk.inj heq
  exact ⟨hg', rfl⟩

/-- One more registration is a write of both maps, or of neither. -/
theorem ofHistory_concat (h : List (GenericHandler σ)) (g : GenericHandler σ) :
    ofHistory strategy (h ++ [g]) =
      if g.requestName ∈ h.map GenericHandler.requestName ∧ strategy.overrides = false then
        ofHistory strategy h
      else registerValidatedRequestResponsePair g.handler g.requestName g.responseName
        (ofHistory strategy h) := by
  have hhandlers := lookup_handlers_isSome_iff strategy h g.requestName
  have hpairs : ((ofHistory strategy h).requestResponsePairs.lookup g.requestName).isSome ↔
      g.requestName ∈ h.map GenericHandler.requestName := by
    rw [lookup_requestResponsePairs_eq, Option.isSome_map, hhandlers]
  have hput : ofHistory strategy (h ++ [g]) =
      { duplicateRegistrationStrategy := strategy
        handlers := put strategy.overrides (ofHistory strategy h).handlers g.requestName g
        requestResponsePairs := put strategy.overrides (ofHistory strategy h).requestResponsePairs
          g.requestName g.responseName } := by
    simp [ofHistory, fill_concat]
  rw [hput]
  simp only [put, hhandlers, hpairs]
  split_ifs <;> rfl

/-- **One registration on the server.** -/
theorem registerHandler_ofHistory (h : List (GenericHandler σ)) (g : GenericHandler σ) :
    registerHandler g.handler (ofHistory strategy h) =
      (registrationOutcome strategy (h.map GenericHandler.requestName) g.pair,
        ofHistory strategy (h ++ [g])) := by
  have hkeys := lookup_handlers_isSome_iff strategy h g.requestName
  rw [ofHistory_concat, registrationOutcome]
  by_cases hmem : g.requestName ∈ h.map GenericHandler.requestName
  · simp only [registerHandler, if_pos (hkeys.mpr hmem), registerDuplicateRequestResponsePair,
      registerDuplicateRequestResponsePair_eq, ofHistory_strategy, hmem, true_and, if_true]
    cases strategy.overrides <;> rfl
  · simp only [registerHandler, if_neg fun hs => hmem (hkeys.mp hs), hmem, false_and, if_false]

/-- A registration that does not count changes nothing. -/
theorem registerHandler_unchanged {h : List (GenericHandler σ)} {g : GenericHandler σ}
    (hmem : g.requestName ∈ h.map GenericHandler.requestName)
    (hoverrides : strategy.overrides = false) :
    (registerHandler g.handler (ofHistory strategy h)).2 = ofHistory strategy h := by
  rw [registerHandler_ofHistory, ofHistory_concat, if_pos ⟨hmem, hoverrides⟩]

/-- **The server refines its history.** -/
theorem callAll_registerHandler (h h' : List (GenericHandler σ)) :
    callAll (h'.map fun g => registerHandler g.handler) (ofHistory strategy h) =
      (registrationOutcomes strategy (h.map GenericHandler.requestName)
        (h'.map GenericHandler.pair), ofHistory strategy (h ++ h')) := by
  induction h' generalizing h with
  | nil => simp [registrationOutcomes]
  | cons g h' ih =>
    rw [List.map_cons, callAll, registerHandler_ofHistory, ih]
    simp [registrationOutcomes]

/-- The constructor leaves the history of its one registration. -/
theorem make_eq : (make strategy : SyncServer σ) = ofHistory strategy [reflection] := by
  have hregistered : registerHandler reflectionHandler (ofHistory strategy []) =
      (_, (ofHistory strategy ([] ++ [reflection]) : SyncServer σ)) :=
    registerHandler_ofHistory [] reflection
  exact congrArg Prod.snd hregistered

/-- A server on which these handlers were registered, by a caller that goes on after an
exception. -/
def registered (strategy : DuplicateRequestResponsePairRegistrationStrategy)
    (h : List (GenericHandler σ)) : SyncServer σ :=
  (callAll (h.map fun g => registerHandler g.handler) (make strategy)).2

theorem registered_eq (strategy : DuplicateRequestResponsePairRegistrationStrategy)
    (h : List (GenericHandler σ)) :
    registered strategy h = ofHistory strategy (reflection :: h) := by
  rw [registered, make_eq, callAll_registerHandler, List.singleton_append]

/-! A history that does not touch the reflection handler leaves it in place, and is read as if the
handler were not there. -/

section Reflection

variable {h : List (GenericHandler σ)}
  (hreflection : ∀ g ∈ h, g.requestName ≠ fullName MappingReflectionRequest)

include hreflection

theorem lookup_handlers_reflection :
    (ofHistory strategy (reflection :: h)).handlers.lookup (fullName MappingReflectionRequest) =
      some reflection := by
  have hnew : fullName MappingReflectionRequest ∉
      (h.map fun g => (g.requestName, g)).map Prod.fst := fun hm => by
    rw [List.map_map] at hm
    obtain ⟨g, hg, heq⟩ := List.mem_map.mp hm
    exact hreflection g hg heq
  rw [lookup_handlers_ofHistory, ← List.singleton_append, List.map_append,
    effective_append_of_notMem_right _ hnew]
  cases strategy <;> simp [effective, last, first, reflection]

theorem lookup_handlers_of_reflection (name : Bytes) :
    (ofHistory strategy (reflection :: h)).handlers.lookup name =
      if name = fullName MappingReflectionRequest then some reflection
      else effective strategy.overrides (h.map fun g => (g.requestName, g)) name := by
  split_ifs with hname
  · rw [hname, lookup_handlers_reflection hreflection]
  · rw [lookup_handlers_ofHistory, ← List.singleton_append, List.map_append]
    exact effective_append_of_notMem _ fun hm => hname (by simpa [reflection] using hm)

end Reflection

end SyncServer

/-! ### The two sides -/

/-- A handler's types, registered on the server with the handler and on the client without. -/
abbrev GenericHandler.types (g : GenericHandler σ) : Descriptor × Descriptor :=
  (g.RequestType, g.ResponseType)

/-- **One semantics of registration.** The same registrations on both sides give the same outcomes
and the same pairs, but for the server's own pair; what counts is the newest registration of a name
under `SilentOverride` and the oldest otherwise, and a registration that does not count changes
neither side. -/
theorem registration_agrees (options : SyncClientOptions)
    (hvalidation : options.validateReqResPairStrategy ≠ .serverReflection)
    (h : List (GenericHandler σ))
    (hreflection : ∀ g ∈ h, g.requestName ≠ fullName MappingReflectionRequest) :
    let strategy := options.duplicateRegistrationStrategy
    let server := callAll (h.map fun g => SyncServer.registerHandler g.handler)
      (SyncServer.make strategy)
    let client := callAll
      (h.map fun g => SyncClient.registerRequestResponsePair g.RequestType g.ResponseType)
      { clientOptions := options }
    server.1 = client.1 ∧
    (∀ name, server.2.requestResponsePairs.lookup name =
      if name = fullName MappingReflectionRequest then some (fullName MappingReflectionResponse)
      else client.2.requestResponsePairs.lookup name) ∧
    (∀ name, client.2.requestResponsePairs.lookup name =
      if strategy = .silentOverride then last (h.map GenericHandler.pair) name
      else first (h.map GenericHandler.pair) name) ∧
    (∀ name, server.2.handlers.lookup name =
      if name = fullName MappingReflectionRequest then some SyncServer.reflection
      else if strategy = .silentOverride then last (h.map fun g => (g.requestName, g)) name
      else first (h.map fun g => (g.requestName, g)) name) ∧
    ∀ g : GenericHandler σ, g.requestName ∈ h.map GenericHandler.requestName →
      strategy ≠ .silentOverride →
      (SyncServer.registerHandler g.handler server.2).2 = server.2 ∧
      (SyncClient.registerRequestResponsePair g.RequestType g.ResponseType client.2).2 =
        client.2 := by
  intro strategy server client
  have hmode : SyncClient.reflects options = false := by
    simpa [SyncClient.reflects] using hvalidation
  have hserver : server = (registrationOutcomes strategy [fullName MappingReflectionRequest]
      (h.map GenericHandler.pair), SyncServer.ofHistory strategy (SyncServer.reflection :: h)) := by
    simp only [server, SyncServer.make_eq, SyncServer.callAll_registerHandler]
    rfl
  have hclient : client = (registrationOutcomes strategy [] (h.map GenericHandler.pair),
      SyncClient.ofHistory options (h.map GenericHandler.pair)) := by
    have := SyncClient.callAll_registerRequestResponsePair hmode [] (h.map GenericHandler.types)
    rw [List.map_map, List.map_map, List.nil_append] at this
    exact this
  have hoverrides : SyncClient.overrides options = strategy.overrides := by
    rw [SyncClient.overrides, hmode, Bool.or_false]
  have heffective : ∀ {V : Type} (b : List (Bytes × V)) name, effective strategy.overrides b name =
      if strategy = .silentOverride then last b name else first b name := by
    intro V b name
    cases strategy <;> rfl
  rw [hserver, hclient]
  refine ⟨?_, fun name => ?_, fun name => ?_, fun name => ?_, fun g hg hstrategy => ⟨?_, ?_⟩⟩
  · refine registrationOutcomes_cons_of_notMem strategy [] fun pair hpair => ?_
    obtain ⟨g, hg, rfl⟩ := List.mem_map.mp hpair
    exact hreflection g hg
  · rw [SyncServer.lookup_requestResponsePairs_eq,
      SyncServer.lookup_handlers_of_reflection hreflection, SyncClient.lookup_ofHistory, hoverrides]
    split_ifs
    · rfl
    · rw [← effective_map, List.map_map]
      rfl
  · rw [SyncClient.lookup_ofHistory, hoverrides, heffective]
  · rw [SyncServer.lookup_handlers_of_reflection hreflection, heffective]
  · exact SyncServer.registerHandler_unchanged (by simp [hg])
      (DuplicateRequestResponsePairRegistrationStrategy.overrides_eq_false_iff.mpr hstrategy)
  · refine SyncClient.registerRequestResponsePair_unchanged _ (by rwa [List.map_map]) ?_
    rw [hoverrides]
    exact DuplicateRequestResponsePairRegistrationStrategy.overrides_eq_false_iff.mpr hstrategy

end Agreement

namespace TestProto

/-- A handler that answers a greeting with itself. -/
def echo : GenericHandler Unit :=
  ⟨TestType.helloWorld, TestType.helloWorld, fun greeting _ s => (.ok greeting, s)⟩

/-- A handler that answers a greeting with nothing. -/
def ignore : GenericHandler Unit :=
  ⟨TestType.helloWorld, TestType.empty, fun _ _ s => (.ok (), s)⟩

/-- Two handlers for one request, of which the newer counts. -/
theorem registration_agrees_echo :
    let server := callAll ([ignore, echo].map fun g => SyncServer.registerHandler g.handler)
      (SyncServer.make .silentOverride)
    server.2.requestResponsePairs.lookup (fullName TestType.helloWorld) =
      some (fullName TestType.helloWorld) :=
  have h := registration_agrees
    { validateReqResPairStrategy := .manualRegistration
      duplicateRegistrationStrategy := .silentOverride } (by decide) [ignore, echo] (by decide)
  (h.2.1 _).trans (h.2.2.1 _)

end TestProto

section TypeSafety

variable [Protobuf] {σ : Type}

/-! ### Types and names on the server -/

/-- A call of one of the two public registration members. -/
inductive RegistrationCall (σ : Type)
  | registerHandler (g : GenericHandler σ)
  | registerDuplicateRequestResponsePair (requestName responseName : Bytes) (g : GenericHandler σ)

namespace RegistrationCall

/-- The member call. -/
def perform : RegistrationCall σ → Method (SyncServer σ) Bool
  | registerHandler g => SyncServer.registerHandler g.handler
  | registerDuplicateRequestResponsePair requestName responseName g =>
    SyncServer.registerDuplicateRequestResponsePair requestName responseName g.handler

/-- The names passed, where there are any, are those of the handler's types. -/
def NamesItsTypes : RegistrationCall σ → Prop
  | registerHandler _ => True
  | registerDuplicateRequestResponsePair requestName responseName g =>
    requestName = g.requestName ∧ responseName = g.responseName

instance : DecidablePred (NamesItsTypes : RegistrationCall σ → Prop)
  | registerHandler _ => inferInstanceAs (Decidable True)
  | registerDuplicateRequestResponsePair _ _ _ => inferInstanceAs (Decidable (_ ∧ _))

end RegistrationCall

namespace SyncServer

/-- Keys, handlers and response names belong together, and the downcast in a stored closure gets
only messages of the type it casts to. -/
structure TypeSafe (server : SyncServer σ) : Prop where
  keys : ∀ name, (server.handlers.lookup name).isSome =
    (server.requestResponsePairs.lookup name).isSome
  request : ∀ name g, server.handlers.lookup name = some g → g.requestName = name
  cast : ∀ (msg : BaseProto) g, server.handlers.lookup (fullName msg.1) = some g →
    msg.1 = g.RequestType
  response : ∀ name g, server.handlers.lookup name = some g →
    server.requestResponsePairs.lookup name = some g.responseName

variable {server : SyncServer σ}

theorem perform_strategy (call : RegistrationCall σ) (server : SyncServer σ) :
    (call.perform server).2.duplicateRegistrationStrategy =
      server.duplicateRegistrationStrategy := by
  cases call <;>
    simp only [RegistrationCall.perform, registerHandler, registerDuplicateRequestResponsePair,
      registerDuplicateRequestResponsePair_eq] <;>
    split_ifs <;> rfl

theorem callAll_perform_strategy (calls : List (RegistrationCall σ)) (server : SyncServer σ) :
    (callAll (calls.map RegistrationCall.perform) server).2.duplicateRegistrationStrategy =
      server.duplicateRegistrationStrategy := by
  induction calls generalizing server with
  | nil => rfl
  | cons call calls ih => rw [List.map_cons, callAll, ih, perform_strategy]

/-- An overriding call under other names takes the maps out of step. -/
theorem not_typeSafe_perform {call : RegistrationCall σ}
    (hstrategy : server.duplicateRegistrationStrategy = .silentOverride)
    (hcall : ¬call.NamesItsTypes) : ¬(call.perform server).2.TypeSafe := by
  cases call with
  | registerHandler g => exact absurd trivial hcall
  | registerDuplicateRequestResponsePair requestName responseName g =>
    intro h
    have hafter : (RegistrationCall.perform
        (.registerDuplicateRequestResponsePair requestName responseName g) server).2 =
        registerValidatedRequestResponsePair g.handler requestName responseName server := by
      simp [RegistrationCall.perform, registerDuplicateRequestResponsePair, hstrategy,
        InterProcessCourier.registerDuplicateRequestResponsePair]
    rw [hafter] at h
    have hg : (registerValidatedRequestResponsePair g.handler requestName responseName
        server).handlers.lookup requestName = some g := AList.lookup_insert _
    have hpair := h.response requestName g hg
    rw [registerValidatedRequestResponsePair, AList.lookup_insert, Option.some.injEq] at hpair
    exact hcall ⟨(h.request requestName g hg).symm, hpair⟩

variable [LawfulProtobuf]

theorem TypeSafe.of_lookup (hkeys : ∀ name, (server.handlers.lookup name).isSome =
      (server.requestResponsePairs.lookup name).isSome)
    (h : ∀ name g, server.handlers.lookup name = some g →
      g.requestName = name ∧ server.requestResponsePairs.lookup name = some g.responseName) :
    server.TypeSafe where
  keys := hkeys
  request name g hg := (h name g hg).1
  cast _ g hg := LawfulProtobuf.fullName_injective (h _ g hg).1.symm
  response name g hg := (h name g hg).2

theorem TypeSafe.empty (strategy : DuplicateRequestResponsePairRegistrationStrategy) :
    TypeSafe ({ duplicateRegistrationStrategy := strategy } : SyncServer σ) :=
  .of_lookup (fun _ => rfl) fun name g hg => by simp at hg

/-- Storing a handler under the names of its types. -/
theorem TypeSafe.store (h : server.TypeSafe) (g : GenericHandler σ) :
    (registerValidatedRequestResponsePair g.handler g.requestName g.responseName
      server).TypeSafe := by
  refine .of_lookup (fun name => ?_) fun name g' hg' => ?_
  · rcases eq_or_ne name g.requestName with rfl | hne
    · simp [registerValidatedRequestResponsePair]
    · simpa [registerValidatedRequestResponsePair, AList.lookup_insert_ne hne] using h.keys name
  · rcases eq_or_ne name g.requestName with rfl | hne
    · simp only [registerValidatedRequestResponsePair, AList.lookup_insert,
        Option.some.injEq] at hg'
      simp [registerValidatedRequestResponsePair, ← hg']
    · simp only [registerValidatedRequestResponsePair, AList.lookup_insert_ne hne] at hg' ⊢
      exact ⟨h.request name g' hg', h.response name g' hg'⟩

theorem TypeSafe.registerDuplicate (h : server.TypeSafe) {requestName responseName : Bytes}
    {g : GenericHandler σ} (hok : server.duplicateRegistrationStrategy ≠ .silentOverride ∨
      requestName = g.requestName ∧ responseName = g.responseName) :
    (registerDuplicateRequestResponsePair requestName responseName g.handler
      server).2.TypeSafe := by
  rw [registerDuplicateRequestResponsePair, registerDuplicateRequestResponsePair_eq]
  rcases hok with hstrategy | ⟨rfl, rfl⟩
  · rw [DuplicateRequestResponsePairRegistrationStrategy.overrides_eq_false_iff.mpr hstrategy]
    exact h
  · dsimp only
    split_ifs
    · exact h.store g
    · exact h

/-- One public call keeps the maps in step, unless it overrides under names of its own. -/
theorem TypeSafe.perform (call : RegistrationCall σ) (h : server.TypeSafe)
    (hok : server.duplicateRegistrationStrategy ≠ .silentOverride ∨ call.NamesItsTypes) :
    (call.perform server).2.TypeSafe := by
  cases call with
  | registerHandler g =>
    simp only [RegistrationCall.perform, registerHandler]
    split_ifs
    · exact h.registerDuplicate (.inr ⟨rfl, rfl⟩)
    · exact h.store g
  | registerDuplicateRequestResponsePair requestName responseName g =>
    exact h.registerDuplicate hok

/-- **When the registry is type safe.** After every call of a sequence of public registrations the
two maps and the handlers' types are in step exactly if nothing overrides, or every direct
registration of a duplicate is made under the names of its handler's types. -/
theorem typeSafe_iff (strategy : DuplicateRequestResponsePairRegistrationStrategy)
    (calls : List (RegistrationCall σ)) :
    (∀ done, done <+: calls →
      (callAll (done.map RegistrationCall.perform) (make strategy)).2.TypeSafe) ↔
      strategy ≠ .silentOverride ∨ ∀ call ∈ calls, call.NamesItsTypes := by
  have hmake : (make strategy : SyncServer σ).TypeSafe := by
    exact TypeSafe.perform (.registerHandler reflection) (.empty strategy) (.inr trivial)
  have hstrategy : (make strategy : SyncServer σ).duplicateRegistrationStrategy = strategy :=
    perform_strategy (.registerHandler reflection) _
  constructor
  · intro h
    by_contra! hnot
    obtain ⟨rfl, call, hcall, hnames⟩ := hnot
    obtain ⟨before, after, rfl⟩ := List.append_of_mem hcall
    have hsafe := h (before ++ [call]) ⟨after, by simp⟩
    rw [List.map_append, List.map_singleton, callAll_concat] at hsafe
    exact not_typeSafe_perform (by rw [callAll_perform_strategy, hstrategy]) hnames hsafe
  · intro hok done hdone
    induction done using List.reverseRecOn with
    | nil => exact hmake
    | append_singleton done call ih =>
      rw [List.map_append, List.map_singleton, callAll_concat]
      refine (ih ((List.prefix_append done [call]).trans hdone)).perform call ?_
      rw [callAll_perform_strategy, hstrategy]
      exact hok.imp_right fun h => h call (hdone.subset (by simp))

end SyncServer

end TypeSafety

namespace TestProto

/-- A handler for greetings is registered, and registered again under the names of its types. -/
def directCalls : List (RegistrationCall Unit) :=
  [.registerHandler echo,
    .registerDuplicateRequestResponsePair echo.requestName echo.responseName echo]

/-- The second call overrides the first, and the registry stays type safe. -/
theorem typeSafe_iff_direct :
    (callAll (directCalls.map RegistrationCall.perform)
      (SyncServer.make .silentOverride)).2.TypeSafe :=
  (SyncServer.typeSafe_iff .silentOverride directCalls).mpr (.inr (by decide)) directCalls
    List.prefix_rfl

/-- A handler for greetings, registered over another name: the server is no longer type safe, and
an `Empty` is cast to a `HelloWorld`. -/
theorem not_typeSafe_echo :
    let server := (callAll ([.registerDuplicateRequestResponsePair (fullName TestType.empty)
      (fullName TestType.empty) echo].map RegistrationCall.perform)
      (SyncServer.make .silentOverride)).2
    ¬server.TypeSafe ∧
      (server.acceptMessage (createProtoPayload (fullName TestType.empty) []) ()).1 =
        .error .undefinedBehaviour :=
  ⟨SyncServer.not_typeSafe_perform rfl (by decide), rfl⟩

end TestProto

end InterProcessCourier
