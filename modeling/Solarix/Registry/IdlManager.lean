import Solarix.Decoder.Basic

/-!
# The IDL cache

`idl/mod.rs`: how an IDL text is read, validated and hashed, and the cache of the IDLs by
program id.
-/

namespace Solarix.Registry

open Solarix.Core

inductive IdlSource where
  | onChain
  | bundled
  | manual
  deriving DecidableEq, Repr

def IdlSource.asStr : IdlSource → String
  | .onChain => "onchain"
  | .bundled => "bundled"
  | .manual => "manual"

structure IdlMetadata where
  name : String
  version : String
  spec : String
  deriving DecidableEq, Repr

structure IdlDocument extends Idl where
  metadata : IdlMetadata

/-- A cached IDL; `rawJson` is the text that was fetched or uploaded. -/
structure CachedIdl where
  idl : IdlDocument
  hash : String
  source : IdlSource
  rawJson : String

inductive IdlError where
  | fetchFailed (programId reason : String)
  | parseFailed (message : String)
  | notFound (programId : String)
  | unsupportedFormat (message : String)
  | decompressionFailed (message : String)
  deriving DecidableEq, Repr

def IdlError.display : IdlError → String
  | .fetchFailed programId reason => s!"failed to fetch IDL for {programId}: {reason}"
  | .parseFailed message => s!"failed to parse IDL: {message}"
  | .notFound programId => s!"IDL not found: {programId}"
  | .unsupportedFormat message => s!"unsupported IDL format: {message}"
  | .decompressionFailed message => s!"IDL decompression failed: {message}"

/-- `serde_json` on texts and values, and the deserialisation of an `Idl`. -/
structure IdlCodec where
  fromStr : String → Except String Json
  toStr : Json → String
  fromValue : Json → Except String IdlDocument

/-! ## Reading an IDL -/

/-- `validate_idl`: only the format with `metadata.spec` is supported. -/
def validateIdl (value : Json) : Except IdlError Unit :=
  match (value.field? "metadata").bind (Json.field? "spec") with
  | some (.str _) => .ok ()
  | some _ => .error (.unsupportedFormat "metadata.spec must be a string")
  | none =>
      .error (.unsupportedFormat
        "missing metadata.spec field — only Anchor IDL v0.30+ is supported")

mutual

def canonicalizeJson : Json → Json
  | .obj entries => Json.ofEntries (canonicalizeEntries entries)
  | .arr items => .arr (canonicalizeItems items)
  | other => other

def canonicalizeItems : List Json → List Json
  | [] => []
  | item :: items => canonicalizeJson item :: canonicalizeItems items

def canonicalizeEntries : List (String × Json) → List (String × Json)
  | [] => []
  | (key, val) :: entries => (key, canonicalizeJson val) :: canonicalizeEntries entries

end

section Manager

variable (env : Externs) (codec : IdlCodec)

/-- The hash of the canonical text; a text that is no JSON is hashed as it is. -/
def computeIdlHash (idlJson : String) : String :=
  let normalized := match codec.fromStr idlJson with
    | .ok value => codec.toStr (canonicalizeJson value)
    | .error _ => idlJson
  Decoder.hexEncode (env.sha256 (utf8Bytes normalized))

/-- What `upload_idl` and `insert_fetched_idl` put in the cache for a text. -/
def readIdl (idlJson : String) (source : IdlSource) : Except IdlError CachedIdl := do
  let rawValue ← (codec.fromStr idlJson).mapError .parseFailed
  validateIdl rawValue
  let idl ← (codec.fromValue rawValue).mapError .parseFailed
  .ok ⟨idl, computeIdlHash env codec idlJson, source, idlJson⟩

/-! ## The cache -/

structure IdlManager where
  cache : String → Option CachedIdl

namespace IdlManager

def empty : IdlManager := ⟨fun _ => none⟩

def getCached (manager : IdlManager) (programId : String) : Option IdlDocument :=
  (manager.cache programId).map CachedIdl.idl

def getCachedEntry (manager : IdlManager) (programId : String) : Option CachedIdl :=
  manager.cache programId

def insert (manager : IdlManager) (programId : String) (entry : CachedIdl) : IdlManager :=
  ⟨fun key => if key = programId then some entry else manager.cache key⟩

def removeCached (manager : IdlManager) (programId : String) : IdlManager :=
  ⟨fun key => if key = programId then none else manager.cache key⟩

@[simp] theorem cache_insert (manager : IdlManager) (programId : String) (entry : CachedIdl) :
    (manager.insert programId entry).cache programId = some entry := by
  simp [insert]

@[simp] theorem cache_removeCached (manager : IdlManager) (programId : String) :
    (manager.removeCached programId).cache programId = none := by
  simp [removeCached]

/-- `insert_fetched_idl`: an entry that is there already is replaced. -/
def insertFetchedIdl (manager : IdlManager) (programId idlJson : String) (source : IdlSource) :
    Except IdlError IdlManager := do
  let entry ← readIdl env codec idlJson source
  .ok (manager.insert programId entry)

def uploadIdl (manager : IdlManager) (programId idlJson : String) : Except IdlError IdlManager :=
  manager.insertFetchedIdl env codec programId idlJson .manual

end IdlManager

end Manager

/-- `fetch_idl_standalone`: the chain first, then the bundled file, with the outcomes of the
two fetches. -/
def fetchIdlStandalone (fromChain fromBundled : Except IdlError String) :
    Except IdlError (String × IdlSource) :=
  match fromChain with
  | .ok json => .ok (json, .onChain)
  | .error (.notFound _) => fromBundled.map fun json => (json, .bundled)
  | .error e =>
      match fromBundled with
      | .ok json => .ok (json, .bundled)
      | .error _ => .error e

/-! ## Entries -/

def IdlCodec.Parses (codec : IdlCodec) (idlJson : String) (idl : IdlDocument) : Prop :=
  ∃ value, codec.fromStr idlJson = .ok value ∧ validateIdl value = .ok () ∧
    codec.fromValue value = .ok idl

section Entries

variable {env : Externs} {codec : IdlCodec} {idlJson programId : String} {source : IdlSource}

theorem readIdl_eq_ok {entry : CachedIdl} (h : readIdl env codec idlJson source = .ok entry) :
    codec.Parses idlJson entry.idl ∧
      entry = ⟨entry.idl, computeIdlHash env codec idlJson, source, idlJson⟩ := by
  obtain ⟨value, hvalue, h⟩ := except_bind_eq_ok.mp h
  obtain ⟨_, hvalid, h⟩ := except_bind_eq_ok.mp h
  obtain ⟨idl, hidl, h⟩ := except_bind_eq_ok.mp h
  cases h
  exact ⟨⟨value, mapError_eq_ok.mp hvalue, hvalid, mapError_eq_ok.mp hidl⟩, rfl⟩

theorem insertFetchedIdl_eq_ok {manager manager' : IdlManager} :
    manager.insertFetchedIdl env codec programId idlJson source = .ok manager' ↔
      ∃ entry, readIdl env codec idlJson source = .ok entry ∧
        manager' = manager.insert programId entry := by
  unfold IdlManager.insertFetchedIdl
  cases readIdl env codec idlJson source with
  | error e => simp [bind, Except.bind]
  | ok entry => simp [bind, Except.bind, eq_comm]

end Entries

/-! ## Two texts -/

def sampleJson (name : String) : Json :=
  .obj [("address", .str "11111111111111111111111111111111"),
    ("instructions", .arr []),
    ("metadata", .obj [("name", .str name), ("spec", .str "0.1.0"), ("version", .str "0.1.0")])]

def sampleText (name : String) : String :=
  "\x7b\"address\":\"11111111111111111111111111111111\",\"instructions\":[]," ++
    "\"metadata\":\x7b\"name\":\"" ++ name ++
    "\",\"spec\":\"0.1.0\",\"version\":\"0.1.0\"\x7d\x7d"

def sampleIdl (name : String) : IdlDocument where
  address := "11111111111111111111111111111111"
  instructions := []
  accounts := []
  types := []
  metadata := ⟨name, "0.1.0", "0.1.0"⟩

def IdlCodec.sample : IdlCodec where
  fromStr text :=
    if text = sampleText "a" then .ok (sampleJson "a")
    else if text = sampleText "b" then .ok (sampleJson "b")
    else .error "expected value"
  toStr value :=
    match (value.field? "metadata").bind (Json.field? "name") with
    | some (.str name) => sampleText name
    | _ => "null"
  fromValue value :=
    match (value.field? "metadata").bind (Json.field? "name") with
    | some (.str name) => .ok (sampleIdl name)
    | _ => .error "missing field"

end Solarix.Registry
