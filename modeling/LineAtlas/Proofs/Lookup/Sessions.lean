import LineAtlas.Proofs.Lookup.Gathering

namespace LineAtlas

/-!
# Sessions with an atlas

A session asks an atlas one thing after another, and loads it at any points of its choice.
Only the first load changes the atlas: until then it answers as one that knows nothing,
and from then on as one that knows what is gathered from its source.
-/

/-- What an atlas can be asked. -/
inductive AtlasRequest where
  | load
  | isLoaded
  | options
  | store
  | rangeSets
  | warnings
  | location (address : UInt64)
  | rowAddresses
  | primaryPaths
  deriving Repr, DecidableEq

/-- What an atlas answers. -/
inductive AtlasReply where
  | done
  | flag (value : Bool)
  | options (value : Options)
  | store (value : LineStore)
  | rangeSets (value : List RangeSet)
  | warnings (value : List Warning)
  | location (value : Option Location)
  | addresses (value : List UInt64)
  | paths (value : List String)
  deriving DecidableEq

namespace AtlasRequest

/-- The answer of an atlas. -/
def reply (atlas : Atlas) : AtlasRequest → AtlasReply
  | load => .done
  | isLoaded => .flag atlas.isLoaded
  | options => .options atlas.options
  | store => .store atlas.known.store
  | rangeSets => .rangeSets atlas.known.rangeSets
  | warnings => .warnings atlas.known.warnings
  | location address => .location (atlas.locate? address)
  | rowAddresses => .addresses atlas.known.store.rowAddresses
  | primaryPaths => .paths atlas.known.store.primaryPaths

/-- The atlas after a request. -/
def after (atlas : Atlas) : AtlasRequest → Atlas
  | load => atlas.load
  | _ => atlas

/-- The answer of an atlas that has not been loaded. -/
def emptyReply (chosen : Options) : AtlasRequest → AtlasReply
  | load => .done
  | isLoaded => .flag false
  | options => .options chosen
  | store => .store { tables := [] }
  | rangeSets => .rangeSets []
  | warnings => .warnings []
  | location _ => .location none
  | rowAddresses => .addresses []
  | primaryPaths => .paths []

end AtlasRequest

namespace Atlas

/-- The answers to requests in a row, and the atlas after them. -/
def session
    (atlas : Atlas) :
    List AtlasRequest → List AtlasReply × Atlas
  | [] => ([], atlas)
  | request :: later =>
      let following := (request.after atlas).session later
      (request.reply atlas :: following.1, following.2)

/-- An atlas that knows what is gathered from its source. -/
def gathered
    (options : Options)
    (source : SectionSource) :
    Atlas where
  source := source
  options := options
  known := source.gathered options.constAddPc
  isLoaded := true

/-- In any session, an atlas gathers what its source says exactly once, at the first load. -/
structure LoadsOnce
    (options : Options)
    (source : SectionSource) :
    Prop where
  /-- Without a load, the atlas stays and answers as one that knows nothing. -/
  unloaded :
    ∀ requests,
      .load ∉ requests →
      (ofSource options source).session requests =
        (requests.map (·.emptyReply options), ofSource options source)
  /-- From the first load on, the atlas stays and answers from what is gathered. -/
  loaded :
    ∀ earlier later,
      .load ∉ earlier →
      (ofSource options source).session (earlier ++ .load :: later) =
        (earlier.map (·.emptyReply options) ++
            .done :: later.map (·.reply (gathered options source)),
          gathered options source)
  /-- Another source with the same order and the same sections of both kinds makes no difference. -/
  sameListing :
    ∀ other : SectionSource,
      other.order = source.order →
      other.debugSections.map (·.listing) = source.debugSections.map (·.listing) →
      ∀ requests,
        (ofSource options other).session requests =
          (((ofSource options source).session requests).1,
            { ((ofSource options source).session requests).2 with source := other })

/-! ## Sessions that change nothing -/

/-- Requests that leave the atlas as it is are answered one by one. -/
theorem session_of_settled
    {atlas : Atlas}
    {requests : List AtlasRequest}
    (settled : ∀ request ∈ requests, request.after atlas = atlas) :
    atlas.session requests = (requests.map (·.reply atlas), atlas) := by
  induction requests with
  | nil =>
      rfl
  | cons request later inductionHypothesis =>
      obtain ⟨stays, laterStay⟩ := List.forall_mem_cons.mp settled
      rw [session, stays, inductionHypothesis laterStay]
      rfl

/-- A session goes on from the atlas that its first part leaves. -/
theorem session_append
    (atlas : Atlas)
    (earlier later : List AtlasRequest) :
    atlas.session (earlier ++ later) =
      ((atlas.session earlier).1 ++ ((atlas.session earlier).2.session later).1,
        ((atlas.session earlier).2.session later).2) := by
  induction earlier generalizing atlas with
  | nil =>
      rfl
  | cons request earlier inductionHypothesis =>
      rw [List.cons_append, session, inductionHypothesis]
      rfl

/-- Only a load changes an atlas. -/
theorem after_of_ne_load
    {request : AtlasRequest}
    (query : request ≠ .load)
    (atlas : Atlas) :
    request.after atlas = atlas := by
  cases request with
  | load =>
      exact absurd rfl query
  | _ =>
      rfl

/-- Once it is loaded, nothing changes an atlas. -/
theorem after_of_isLoaded
    {atlas : Atlas}
    (isLoaded : atlas.isLoaded = true)
    (request : AtlasRequest) :
    request.after atlas = atlas := by
  cases request with
  | load =>
      exact if_pos isLoaded
  | _ =>
      rfl

/-! ## Sessions with a source -/

section

variable
  (options : Options)
  (source : SectionSource)

/-- Loading an atlas gathers what its source says. -/
theorem load_ofSource : (ofSource options source).load = gathered options source := by
  rw [gathered, ← Knowledge.ofSource_eq_gathered]
  rfl

/-- An atlas that has not been loaded answers as one that knows nothing. -/
theorem reply_ofSource (request : AtlasRequest) :
    request.reply (ofSource options source) = request.emptyReply options := by
  cases request <;> rfl

/-- Without a load, an atlas goes on knowing nothing. -/
theorem session_of_not_mem
    {requests : List AtlasRequest}
    (noLoad : .load ∉ requests) :
    (ofSource options source).session requests =
      (requests.map (·.emptyReply options), ofSource options source) := by
  have settled :
      ∀ request ∈ requests,
        request.after (ofSource options source) = ofSource options source := by
    intro request member
    exact after_of_ne_load (fun isLoad => noLoad (isLoad ▸ member)) _
  rw [session_of_settled settled]
  simp only [reply_ofSource]

/-- From the first load on, an atlas knows what is gathered from its source. -/
theorem session_of_first_load
    {earlier : List AtlasRequest}
    (noLoad : .load ∉ earlier)
    (later : List AtlasRequest) :
    (ofSource options source).session (earlier ++ .load :: later) =
      (earlier.map (·.emptyReply options) ++
          .done :: later.map (·.reply (gathered options source)),
        gathered options source) := by
  have settled :=
    session_of_settled fun request (_ : request ∈ later) =>
      after_of_isLoaded (show (gathered options source).isLoaded = true from rfl) request
  rw [session_append, session_of_not_mem options source noLoad, session, AtlasRequest.after,
    load_ofSource, settled]
  rfl

/-- An atlas answers from what it knows, and not from the source that this came from. -/
theorem reply_with_source
    (atlas : Atlas)
    (other : SectionSource)
    (request : AtlasRequest) :
    request.reply { atlas with source := other } = request.reply atlas := by
  cases request <;> rfl

/-- Two sources with the same sections of both kinds lead to the same sessions. -/
theorem session_of_sameListing
    {other : SectionSource}
    (sameOrder : other.order = source.order)
    (sameListing :
      other.debugSections.map (·.listing) = source.debugSections.map (·.listing))
    (requests : List AtlasRequest) :
    (ofSource options other).session requests =
      (((ofSource options source).session requests).1,
        { ((ofSource options source).session requests).2 with source := other }) := by
  have sameKnown : gathered options other = { gathered options source with source := other } := by
    rw [gathered, gathered, ← Knowledge.ofSource_eq_gathered, ← Knowledge.ofSource_eq_gathered,
      Knowledge.ofSource_eq_of_debugListing sameOrder sameListing]
  -- The first load, if there is one, splits the session into one before and one after it.
  by_cases loads : .load ∈ requests
  · obtain ⟨earlier, later, rfl, noLoad⟩ := List.eq_append_cons_of_mem loads
    rw [session_of_first_load options other noLoad, session_of_first_load options source noLoad,
      sameKnown]
    simp only [reply_with_source]
  · rw [session_of_not_mem options other loads, session_of_not_mem options source loads]
    rfl

end

/-- Whatever a session asks, and whenever it loads, the atlas gathers its source once. -/
theorem loadsOnce
    (options : Options)
    (source : SectionSource) :
    LoadsOnce options source where
  unloaded _ := session_of_not_mem options source
  loaded _ later noLoad := session_of_first_load options source noLoad later
  sameListing _ := session_of_sameListing options source

end Atlas

end LineAtlas
