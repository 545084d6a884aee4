/-
**Where a cached document comes from.**

A repository answers from its cache as long as it can, so what a reading gives may be older than what
the store holds. It is not arbitrary: a document is the one that the latest successful reload found,
or, before any reload found it, the one that the first successful reading found.

* `Occurrence.text?`: the text of a type that the store gave during an operation;
* `origin`: the text that a history says a document comes from;
* `Sourced`: the cache has the documents of these texts; every operation keeps this;
* **`document_of_origin`**: what every reading in every run gives.
-/

import Gatehouse.Proofs.Documents.Readiness

namespace Gatehouse

variable {σ ω : Type}

/-! ### Texts that a store gave -/

/-- The text of a type in the answer of the store. -/
def Exchange.text? (type : String) : Exchange → Option String
  | .multiGet _ (.ok listed) => textIn type listed
  | _ => none

/-- Whether an answer is no error. -/
def Answer.isOk : Answer → Bool
  | .document (.ok _) | .documents (.ok _) | .done (.ok _) => true
  | .document (.error _) | .documents (.error _) | .done (.error _) => false

/-- The one document of an answer. -/
def Answer.single? : Answer → Option Settings
  | .document (.ok given) => given
  | _ => none

/-- The document of a type among those of an answer. -/
def Answer.entry? (type : String) : Answer → Option Settings
  | .documents (.ok given) => given.find? type
  | _ => none

/-- The document of a type in the answer to a reading. -/
def Reading.document? (type : String) (answer : Answer) : Reading → Option Settings
  | .get other => if type = other then answer.single? else none
  | .getBulk _ | .reload _ => answer.entry? type

/-- The text of a type that was found: what the store gave, unless the answer is an error. -/
def textFound (type : String) (exchanges : List Exchange) (answer : Answer) : Option String :=
  if answer.isOk then exchanges.findSome? (Exchange.text? type) else none

namespace Operation

/-- Whether an operation reloads documents. -/
def isReload : Operation σ ω → Bool
  | .read (.reload _) | .reloadSubscribed => true
  | _ => false

/-- Whether an operation reads documents of a type through the cache. A reading of one type passes over
what else the store may list. -/
def looksFor (type : String) : Operation σ ω → Bool
  | .read (.get other) => type = other
  | .read (.getBulk _) => true
  | _ => false

end Operation

namespace Occurrence

/-- The text of a type that was found. -/
def text? (type : String) (occurrence : Occurrence σ ω) : Option String :=
  textFound type occurrence.exchanges occurrence.answer

/-- The text of a type that a successful reload found. -/
def reloaded? (type : String) (occurrence : Occurrence σ ω) : Option String :=
  if occurrence.operation.isReload then occurrence.text? type else none

/-- The text of a type that another successful reading found. -/
def fetched? (type : String) (occurrence : Occurrence σ ω) : Option String :=
  if occurrence.operation.looksFor type then occurrence.text? type else none

/-- The document that was given for a type. -/
def document? (type : String) (occurrence : Occurrence σ ω) : Option Settings :=
  match occurrence.operation with
  | .read reading => reading.document? type occurrence.answer
  | .reloadSubscribed => occurrence.answer.entry? type
  | .subscribe _ _ | .persist _ _ | .change _ => none

end Occurrence

/-- The text that a document of a type comes from: the one found by the latest reload that found any,
or else by the first reading that did. -/
def origin (type : String) (history : List (Occurrence σ ω)) : Option String :=
  (history.reverse.findSome? (·.reloaded? type)).or (history.findSome? (·.fetched? type))

theorem origin_append_singleton (type : String) (past : List (Occurrence σ ω))
    (occurrence : Occurrence σ ω) : origin type (past ++ [occurrence]) =
      (occurrence.reloaded? type).or ((origin type past).or (occurrence.fetched? type)) := by
  unfold origin
  rw [List.reverse_append, List.findSome?_append, List.findSome?_append, Option.or_assoc,
    Option.or_assoc, List.reverse_singleton, List.findSome?_singleton, List.findSome?_singleton]

/-- Without a reload that finds a document its origin stays what it is. -/
theorem origin_append {type text : String} {past later : List (Occurrence σ ω)}
    (comes : origin type past = some text)
    (still : ∀ occurrence ∈ later, occurrence.reloaded? type = none) :
    origin type (past ++ later) = some text := by
  induction later generalizing past with
  | nil => rwa [List.append_nil]
  | cons occurrence rest ih =>
    rw [List.append_cons]
    refine ih ?_ fun other member => still other (List.mem_cons_of_mem _ member)
    rw [origin_append_singleton, still occurrence List.mem_cons_self, comes]
    rfl

/-! ### One reading -/

namespace Reading

theorem isOk_failed (reading : Reading) (error : DocumentError) :
    (reading.failed error).isOk = false := by
  cases reading <;> rfl

theorem Gives.isOk {reading : Reading} {cache found : Table Settings} {answer : Answer}
    (gives : reading.Gives cache found answer) : answer.isOk = true := by
  cases reading with
  | get _ | reload _ => rw [Gives] at gives; rw [gives]; rfl
  | getBulk _ => obtain ⟨_, rfl, _⟩ := gives; rfl

theorem merged_none {α : Type} (reading : Reading) (type : String) (known : Option α) :
    reading.merged type known none = known := by
  cases reading <;> simp [merged]

theorem merged_self {α : Type} (reading : Reading) (type : String) (value : α) :
    reading.merged type (some value) (some value) = some value := by
  cases reading <;> rfl

theorem rel_merged {α β : Type} {r : α → β → Prop} (reading : Reading) (type : String)
    {a b : Option α} {x y : Option β} (known : Option.Rel r a x) (found : Option.Rel r b y) :
    Option.Rel r (reading.merged type a b) (reading.merged type x y) := by
  cases reading with
  | get other =>
    refine rel_or known ?_
    split
    · exact found
    · exact .none
  | getBulk _ => exact rel_or known found
  | reload _ => exact rel_or found known

theorem document?_nothing (type : String) (reading : Reading) :
    reading.document? type reading.nothing = none := by
  cases reading with
  | get _ => exact ite_self none
  | getBulk _ | reload _ => exact Table.find?_empty type

theorem document?_failed (type : String) (reading : Reading) (error : DocumentError) :
    reading.document? type (reading.failed error) = none := by
  cases reading with
  | get _ => exact ite_self none
  | getBulk _ | reload _ => rfl

theorem Gives.merged {reading : Reading} {cache found : Table Settings} {answer : Answer}
    (gives : reading.Gives cache found answer) {type : String} {settings : Settings}
    (given : reading.document? type answer = some settings) :
    reading.merged type (cache.find? type) (found.find? type) = some settings := by
  cases reading with
  | get other =>
    rw [Gives] at gives
    subst gives
    rw [document?, Answer.single?] at given
    rw [Reading.merged]
    split at given
    · next same =>
      subst same
      rwa [if_pos rfl]
    · cases given
  | getBulk types =>
    obtain ⟨all, rfl, every⟩ := gives
    rw [document?, Answer.entry?, every] at given
    split at given
    · exact given
    · cases given
  | reload types =>
    rw [Gives] at gives
    subst gives
    have here : found.find? type = some settings := given
    rw [Reading.merged, here, Option.some_or]

end Reading

theorem rel_found {listed : List (String × StoredDocument)} {found : Table Settings}
    (parsed : Documents.parseAll .empty listed = .ok found) (type : String) :
    Option.Rel Parses (textIn type listed) (found.find? type) := by
  have unknown : Option.Rel Parses none (Table.find? .empty type) := by
    rw [Table.find?_empty]
    exact .none
  have onto := rel_parseAll parsed unknown
  rwa [Option.or_none] at onto

section Step

variable [DocumentStore σ] {documents after : Documents σ}

theorem Gate.findSome?_text {probe : List Exchange} {ready : Bool}
    (gate : Gate documents probe ready after) (type : String) :
    probe.findSome? (Exchange.text? type) = none := by
  cases gate with
  | passed _ => rfl
  | probed _ asked => cases asked <;> rfl

namespace Conduct

variable {reading : Reading} {exchanges : List Exchange} {answer : Answer}

/-- The cache merges what it had with the document whose text was found. -/
theorem merges (conduct : Conduct documents reading exchanges answer after) (type : String) :
    ∃ found, Option.Rel Parses (textFound type exchanges answer) found ∧
      after.cache.find? type = reading.merged type (documents.cache.find? type) found := by
  unfold textFound
  cases conduct with
  | idle _ =>
    rw [List.findSome?_nil, ite_self]
    exact ⟨none, .none, (reading.merged_none type _).symm⟩
  | refused _ gate =>
    rw [gate.findSome?_text, ite_self, gate.cache_eq]
    exact ⟨none, .none, (reading.merged_none type _).symm⟩
  | known gate _ _ =>
    rw [gate.findSome?_text, ite_self, gate.cache_eq]
    exact ⟨none, .none, (reading.merged_none type _).symm⟩
  | failed gate _ _ _ =>
    -- texts that came with a malformed one do not count as found
    rw [Reading.isOk_failed, if_neg Bool.false_ne_true, ← gate.cache_eq]
    exact ⟨none, .none, (reading.merged_none type _).symm⟩
  | read _ gate _ _ parsed gives keeps =>
    rw [gives.isOk, if_pos rfl, List.findSome?_append, gate.findSome?_text, Option.none_or,
      List.findSome?_singleton]
    exact ⟨_, rel_found parsed type, keeps type⟩

/-- If the cache has the document of a text, then afterwards it has that of the text preferred between
this and the one found. -/
theorem rel (conduct : Conduct documents reading exchanges answer after) {type : String}
    {text : Option String} (known : Option.Rel Parses text (documents.cache.find? type)) :
    Option.Rel Parses (reading.merged type text (textFound type exchanges answer))
      (after.cache.find? type) := by
  obtain ⟨found, texts, cached⟩ := conduct.merges type
  rw [cached]
  exact reading.rel_merged type known texts

/-- What a reading gives is cached then. -/
theorem cached (conduct : Conduct documents reading exchanges answer after) {type : String}
    {settings : Settings} (given : reading.document? type answer = some settings) :
    after.cache.find? type = some settings := by
  cases conduct with
  | idle _ => cases (Reading.document?_nothing type reading).symm.trans given
  | refused _ _ => cases (Reading.document?_nothing type reading).symm.trans given
  | known gate _ gives =>
    have merged := gives.merged given
    rw [Table.find?_empty, Reading.merged_none] at merged
    rw [gate.cache_eq]
    exact merged
  | failed _ _ _ _ => cases (Reading.document?_failed type reading _).symm.trans given
  | read cache _ _ _ _ gives keeps => exact (keeps type).trans (gives.merged given)

/-- A document that is cached is not asked for, and reading it gives it. -/
theorem get_cached {type : String} {settings : Settings}
    (conduct : Conduct documents (.get type) exchanges answer after)
    (ready : documents.ready = true) (cached : documents.cache.find? type = some settings) :
    answer = .document (.ok (some settings)) := by
  have nothing : (Reading.get type).wanted documents.cache = none := by
    simp [Reading.wanted, Table.contains, cached]
  generalize same : Reading.get type = reading at conduct nothing
  cases conduct with
  | idle vacuous => cases same.trans vacuous
  | refused _ gate => cases (gate.of_ready ready).2.1
  | known _ _ gives =>
    subst same
    rw [Reading.Gives, cached] at gives
    exact gives
  | failed _ wanted _ _ => cases nothing.symm.trans wanted
  | read _ _ wanted _ _ _ _ => cases nothing.symm.trans wanted

/-- A document that is cached is in the answer to a reading of several types, if that succeeds. -/
theorem getBulk_cached {types : List String} {type : String} {settings : Settings}
    (conduct : Conduct documents (.getBulk types) exchanges answer after)
    (ready : documents.ready = true) (cached : documents.cache.find? type = some settings)
    (member : type ∈ types) (succeeds : answer.isOk = true) :
    answer.entry? type = some settings := by
  -- what the answer has for the type, whatever was found
  have given {found : Table Settings}
      (gives : (Reading.getBulk types).Gives documents.cache found answer) :
      answer.entry? type = some settings := by
    obtain ⟨all, rfl, every⟩ := gives
    rw [Answer.entry?, every, if_pos (.inl member), cached, Option.some_or]
  generalize same : Reading.getBulk types = reading at conduct given
  cases conduct with
  | idle vacuous =>
    cases same.trans vacuous
    cases member
  | refused _ gate => cases (gate.of_ready ready).2.1
  | known _ _ gives => exact given gives
  | failed _ _ _ _ => cases (reading.isOk_failed _).symm.trans succeeds
  | read _ _ _ _ _ gives _ => exact given gives

end Conduct

end Step

/-! ### Runs -/

/-- After a reading a document comes from the text preferred between that it came from before and the
one that was found. -/
theorem origin_of_reading [DocumentStore σ] {site : Site σ ω} {operation : Operation σ ω}
    {reading : Reading} (reads : operation.reading? site = some reading) (type : String)
    (past : List (Occurrence σ ω)) :
    origin type (past ++ [site.observe operation]) =
      reading.merged type (origin type past) ((site.observe operation).text? type) := by
  rw [origin_append_singleton]
  have same : (site.observe operation).operation = operation := rfl
  cases operation with
  | read other =>
    cases reads
    cases reading <;> simp [Occurrence.reloaded?, Occurrence.fetched?, same, Operation.isReload,
      Operation.looksFor, Reading.merged]
  | reloadSubscribed =>
    cases reads
    simp [Occurrence.reloaded?, Occurrence.fetched?, same, Operation.isReload, Operation.looksFor,
      Reading.merged]
  | subscribe _ _ | persist _ _ | change _ => cases reads

theorem origin_of_no_reading [DocumentStore σ] {site : Site σ ω} {operation : Operation σ ω}
    (idle : operation.reading? site = none) (type : String) (past : List (Occurrence σ ω)) :
    origin type (past ++ [site.observe operation]) = origin type past := by
  rw [origin_append_singleton]
  have same : (site.observe operation).operation = operation := rfl
  cases operation with
  | read _ | reloadSubscribed => cases idle
  | subscribe _ _ | persist _ _ | change _ =>
    simp [Occurrence.reloaded?, Occurrence.fetched?, same, Operation.isReload, Operation.looksFor]

/-- The cache has the documents that the history gives an origin, and none before the gate opens. -/
structure Sourced (past : List (Occurrence σ ω)) (site : Site σ ω) : Prop where
  comes : ∀ type, Option.Rel Parses (origin type past) (site.documents.cache.find? type)
  fresh : site.documents.ready = false → site.documents.cache = .empty

namespace Sourced

theorem ofStore (store : σ) (world : ω) : Sourced [] (Site.ofStore store world) where
  comes type := by
    show Option.Rel Parses none (Table.find? .empty type)
    rw [Table.find?_empty]
    exact .none
  fresh _ := rfl

variable {past : List (Occurrence σ ω)} {site : Site σ ω}

theorem exists_text (sourced : Sourced past site) {type : String} {settings : Settings}
    (cached : site.documents.cache.find? type = some settings) :
    ∃ text, origin type past = some text ∧ Parses text settings := by
  have comes := sourced.comes type
  rw [cached] at comes
  generalize origin type past = text at comes
  cases comes with
  | some parses => exact ⟨_, rfl, parses⟩

theorem exists_cached (sourced : Sourced past site) {type text : String}
    (comes : origin type past = some text) :
    ∃ settings, Parses text settings ∧ site.documents.cache.find? type = some settings ∧
      site.documents.ready = true := by
  have known := sourced.comes type
  rw [comes] at known
  generalize cached : site.documents.cache.find? type = settings at known
  cases known with
  | some parses =>
    refine ⟨_, parses, rfl, Bool.not_eq_false _ ▸ fun closed => ?_⟩
    rw [sourced.fresh closed, Table.find?_empty] at cached
    cases cached

theorem observe [DocumentStore σ] (past : List (Occurrence σ ω)) (site : Site σ ω)
    (operation : Operation σ ω) (sourced : Sourced past site) :
    Sourced (past ++ [site.observe operation]) (site.perform operation).2 where
  comes type := by
    cases reads : operation.reading? site with
    | none =>
      obtain ⟨_, _, cache, _⟩ := Site.observe_of_no_reading reads
      rw [origin_of_no_reading reads]
      show Option.Rel Parses _ ((site.observe operation).site.documents.cache.find? type)
      rw [cache]
      exact sourced.comes type
    | some reading =>
      rw [origin_of_reading reads]
      exact (Site.observe_of_reading reads).1.rel (sourced.comes type)
  fresh := fun closed =>
    have ⟨before, cache, _⟩ := Site.observe_closed closed
    cache.trans (sourced.fresh before)

end Sourced

theorem Site.cached_of_document [DocumentStore σ] {site : Site σ ω} {operation : Operation σ ω}
    {type : String} {settings : Settings}
    (given : (site.observe operation).document? type = some settings) :
    (site.perform operation).2.documents.cache.find? type = some settings := by
  cases operation with
  | read reading => exact (observe_of_reading rfl).1.cached given
  | reloadSubscribed =>
    have reads : Operation.reading? site .reloadSubscribed =
        some (.reload site.repository.subscribedTypes) := rfl
    exact (observe_of_reading reads).1.cached given
  | subscribe _ _ | persist _ _ | change _ => cases given

/-- **A document is the one that the latest reload found, or else the first reading.** Whatever the
store does between the operations of a run:

* a document that is given is that of the text it comes from;
* once there is such a text, a reading of the type does not fail and gives its document, and so does
  every reading of several types that does not fail;
* as long as no reload finds another, every document given for the type is the same. -/
theorem document_of_origin [DocumentStore σ] (store : σ) (world : ω)
    (operations : List (Operation σ ω)) (type : String) :
    let history := (Site.ofStore store world).history operations
    (∀ before occurrence after, history = before ++ occurrence :: after →
      (∀ settings, occurrence.document? type = some settings →
        ∃ text, origin type (before ++ [occurrence]) = some text ∧ Parses text settings) ∧
      ∀ text, origin type before = some text → ∃ settings, Parses text settings ∧
        (occurrence.operation = .read (.get type) →
          occurrence.answer = .document (.ok (some settings))) ∧
        ∀ types, occurrence.operation = .read (.getBulk types) → type ∈ types →
          occurrence.answer.isOk = true → occurrence.document? type = some settings) ∧
    ∀ before first between second after, history = before ++ first :: between ++ second :: after →
      (∀ occurrence ∈ between ++ [second], occurrence.reloaded? type = none) →
      ∀ settings other, first.document? type = some settings →
        second.document? type = some other → other = settings := by
  intro history
  have given : ∀ before occurrence after, history = before ++ occurrence :: after →
      ∀ settings, occurrence.document? type = some settings →
        ∃ text, origin type (before ++ [occurrence]) = some text ∧ Parses text settings := by
    intro before occurrence after split settings given
    obtain ⟨present, sourced, same⟩ :=
      Site.history_split Sourced Sourced.observe (.ofStore store world) split
    rw [same] at given ⊢
    exact (sourced.observe before present _).exists_text (Site.cached_of_document given)
  refine ⟨fun before occurrence after split => ⟨given before occurrence after split, ?_⟩, ?_⟩
  · -- what has an origin is cached behind an open gate, so the store is not asked for it
    intro text comes
    obtain ⟨present, sourced, same⟩ :=
      Site.history_split Sourced Sourced.observe (.ofStore store world) split
    generalize occurrence.operation = operation at same
    subst same
    obtain ⟨settings, parses, cached, ready⟩ := sourced.exists_cached comes
    refine ⟨settings, parses, fun reads => ?_, fun types reads member succeeds => ?_⟩
    · obtain rfl : operation = .read (.get type) := reads
      exact (Site.observe_of_reading rfl).1.get_cached ready cached
    · obtain rfl : operation = .read (.getBulk types) := reads
      exact (Site.observe_of_reading rfl).1.getBulk_cached ready cached member succeeds
  · -- both documents are of the origin that the earlier occurrence left
    intro before first between second after split still settings other shown later
    obtain ⟨text, comes, parses⟩ :=
      given before first (between ++ second :: after) (by simpa using split) settings shown
    obtain ⟨text', comes', parses'⟩ :=
      given (before ++ first :: between) second after split other later
    have stays := origin_append comes still
    rw [← List.append_assoc, List.append_assoc before, List.singleton_append, comes'] at stays
    cases stays
    exact Except.ok.inj (parses'.symm.trans parses)

/-- What replaces a document in the store, or removes it, is seen after a reload that finds one. -/
example :
    let put text : Operation MemoryStore Unit :=
      .change fun store => { store with documents := store.documents.put "config" text }
    let remove : Operation MemoryStore Unit := .change fun _ => .empty
    let operations := [.read (.get "config"), put "user: spock", .read (.get "config"),
      put "user: kirk", .read (.getBulk ["roles", "config"]), .read (.reload ["config"]), remove,
      .read (.reload ["config"]), .read (.get "config")]
    let first := (Settings.ofYaml "user: spock").toOption
    let second := (Settings.ofYaml "user: kirk").toOption
    ((Site.ofStore MemoryStore.empty ()).history operations).map (·.document? "config") =
      [none, none, first, none, first, second, none, none, second] := by
  decide +kernel

end Gatehouse
