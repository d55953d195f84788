import Solarix.Core.Base64
import Solarix.Core.LittleEndian
import Solarix.Registry.CacheRuns

/-!
# Fetching an IDL

`idl/fetch.rs`: the IDL account of a program, as `getAccountInfo` returns it, and the bundled
file.  The account holds a discriminator, an authority, the length of the payload and the
payload, which is compressed.  What comes after the payload is not read.
-/

namespace Solarix.Registry

open Solarix.Core

/-- What a zlib decoder reads: the bytes up to its end or its first error. -/
structure Inflated where
  bytes : List UInt8
  error : Option String

structure FetchEnv where
  /-- The address of the IDL account, or why there is none. -/
  idlAddress : String → Except String String
  statusText : Nat → String
  jsonText : Json → String
  base64 : Base64
  inflate : List UInt8 → Inflated

/-! ## The account -/

/-- 16 MiB. -/
def maxIdlSize : Nat := 16 * 1024 * 1024

def headerSize : Nat := 8 + 32 + 4

/-- `decoder.take(limit).read_to_string(..)`: an error of the decoder goes first. -/
def readToString (limit : Nat) (inflated : Inflated) : Except String String :=
  match if inflated.bytes.length < limit then inflated.error else none with
  | some e => .error e
  | none =>
      match decodeUtf8 (inflated.bytes.take limit) with
      | some text => .ok text
      | none => .error "stream did not contain valid UTF-8"

def decompressIdlData (inflate : List UInt8 → Inflated) (accountData : List UInt8) :
    Except IdlError String :=
  if accountData.length < headerSize then
    .error (.decompressionFailed (s!"account data too short: {accountData.length} bytes, " ++
      s!"need at least {headerSize}"))
  else
    let dataLen := leNat ((accountData.drop 40).take 4)
    match checkedAdd headerSize dataLen with
    | none => .error (.decompressionFailed s!"data_len overflow: {dataLen}")
    | some payloadEnd =>
        if accountData.length < payloadEnd then
          .error (.decompressionFailed (s!"account data truncated: have {accountData.length} " ++
            s!"bytes, need {payloadEnd} (data_len={dataLen})"))
        else
          let compressed := (accountData.take payloadEnd).drop headerSize
          match readToString maxIdlSize (inflate compressed) with
          | .error e => .error (.decompressionFailed e)
          | .ok idlJson =>
              if maxIdlSize ≤ (utf8Bytes idlJson).length then
                .error (.decompressionFailed
                  s!"decompressed IDL exceeds maximum size of {maxIdlSize} bytes")
              else .ok idlJson

/-- The account as a program that publishes its IDL writes it. -/
def idlAccount (discriminator authority payload rest : List UInt8) : List UInt8 :=
  discriminator ++ authority ++ leBytes 4 payload.length ++ payload ++ rest

/-! ## The request -/

/-- What `send` returns: an error, or a response with its status and its body as JSON. -/
inductive HttpReply where
  | sendError (message : String)
  | response (status : Nat) (body : Except String Json)

/-- The first element of the `data` of an account, if it is a text. -/
def accountText (value : Json) : Option String :=
  match value.field? "data" with
  | some (.arr (.str text :: _)) => some text
  | _ => none

def isNull : Json → Bool
  | .null => true
  | _ => false

def fetchIdlFromChain (env : FetchEnv) (programId : String) (reply : HttpReply) :
    Except IdlError String :=
  match env.idlAddress programId, reply with
  | .error reason, _ => .error (.fetchFailed programId reason)
  | .ok _, .sendError message => .error (.fetchFailed programId message)
  | .ok _, .response status body =>
      if !isSuccess status then
        .error (.fetchFailed programId s!"RPC returned HTTP {env.statusText status}")
      else
        match body with
        | .error e => .error (.fetchFailed programId s!"failed to parse RPC response: {e}")
        | .ok response =>
            match (response.field? "error").filter (!isNull ·), response.field? "result" with
            | some error, _ =>
                .error (.fetchFailed programId s!"RPC error: {env.jsonText error}")
            | none, none =>
                .error (.fetchFailed programId "malformed RPC response: missing 'result' field")
            | none, some result =>
                match (result.field? "value").filter (!isNull ·) with
                | none => .error (.notFound
                    s!"on-chain IDL account not found for program {programId}")
                | some value =>
                    match accountText value with
                    | none => .error (.fetchFailed programId
                        "missing or invalid data field in account info")
                    | some text =>
                        match env.base64.decode text with
                        | .error e => .error (.fetchFailed programId
                            s!"base64 decode failed: {e}")
                        | .ok accountData => decompressIdlData env.inflate accountData

/-- What `read_to_string` returns for the bundled file. -/
inductive FileReply where
  | contents (text : String)
  | notFound
  | failed (message : String)

/-- The name of the file has no other directory in it. -/
def bundledNameSafe (programId : String) : Bool :=
  !programId.toList.contains '/' && !programId.toList.contains '\\' &&
    (splitOnceText ".." programId).isNone

def fetchIdlFromBundled (programId : String) (reply : FileReply) : Except IdlError String :=
  if !bundledNameSafe programId then
    .error (.notFound s!"invalid program ID for bundled lookup: {programId}")
  else
    match reply with
    | .contents text => .ok text
    | .notFound => .error (.notFound (s!"IDL not found for program {programId}. " ++
        "Upload manually via POST /api/programs"))
    | .failed message => .error (.fetchFailed programId
        s!"failed to read bundled IDL file: {message}")

/-! ## What an account holds -/

section Account

variable {inflate : List UInt8 → Inflated} {data discriminator authority payload rest : List UInt8}
  {text : String}

theorem readToString_eq_ok_iff {limit : Nat} {inflated : Inflated} :
    readToString limit inflated = .ok text ∧ (utf8Bytes text).length < limit ↔
      inflated.bytes = utf8Bytes text ∧ inflated.error = none ∧ inflated.bytes.length < limit := by
  unfold readToString
  by_cases hshort : inflated.bytes.length < limit
  · rw [if_pos hshort, List.take_of_length_le hshort.le]
    cases herror : inflated.error with
    | some e => simp
    | none =>
        cases htext : decodeUtf8 inflated.bytes with
        | none =>
            have hne : inflated.bytes ≠ utf8Bytes text := by
              intro heq
              rw [decodeUtf8_eq_some.mpr heq] at htext
              cases htext
            simp [hne]
        | some found =>
            have hbytes := decodeUtf8_eq_some.mp htext
            simp only [Except.ok.injEq, true_and]
            constructor
            · rintro ⟨rfl, -⟩
              exact ⟨hbytes, hshort⟩
            · rintro ⟨heq, -⟩
              rw [decodeUtf8_eq_some.mpr heq] at htext
              cases htext
              exact ⟨rfl, heq ▸ hshort⟩
  · rw [if_neg hshort]
    have hlength : (inflated.bytes.take limit).length = limit := by
      rw [List.length_take]
      omega
    refine iff_of_false ?_ fun h => hshort h.2.2
    rintro ⟨hok, hlt⟩
    split at hok
    · cases hok
    · split at hok
      · rename_i found hfound
        cases hok
        rw [← decodeUtf8_eq_some.mp hfound] at hlt
        omega
      · cases hok

theorem length_idlAccount (hdiscriminator : discriminator.length = 8)
    (hauthority : authority.length = 32) :
    (idlAccount discriminator authority payload rest).length =
      headerSize + payload.length + rest.length := by
  simp only [idlAccount, List.length_append, hdiscriminator, hauthority, length_leBytes, headerSize]

theorem dataLen_idlAccount (hdiscriminator : discriminator.length = 8)
    (hauthority : authority.length = 32) :
    ((idlAccount discriminator authority payload rest).drop 40).take 4 =
      leBytes 4 payload.length := by
  have hheader : (discriminator ++ authority).length = 40 := by
    rw [List.length_append, hdiscriminator, hauthority]
  have hparts : idlAccount discriminator authority payload rest =
      (discriminator ++ authority) ++ (leBytes 4 payload.length ++ (payload ++ rest)) := by
    simp [idlAccount]
  rw [hparts, List.drop_left' hheader, List.take_left' (length_leBytes 4 _)]

theorem compressed_idlAccount (hdiscriminator : discriminator.length = 8)
    (hauthority : authority.length = 32) :
    ((idlAccount discriminator authority payload rest).take
      (headerSize + payload.length)).drop headerSize = payload := by
  have hheader : (discriminator ++ authority ++ leBytes 4 payload.length).length =
      headerSize := by
    simp [hdiscriminator, hauthority, headerSize]
  have hparts : idlAccount discriminator authority payload rest =
      (discriminator ++ authority ++ leBytes 4 payload.length) ++ (payload ++ rest) := by
    simp [idlAccount]
  rw [List.drop_take, hparts, List.drop_left' hheader, Nat.add_sub_cancel_left,
    List.take_left' rfl]

theorem payload_unique {discriminator' authority' payload' rest' : List UInt8}
    (hdiscriminator : discriminator.length = 8) (hauthority : authority.length = 32)
    (hpayload : payload.length < 2 ^ 32) (hdiscriminator' : discriminator'.length = 8)
    (hauthority' : authority'.length = 32) (hpayload' : payload'.length < 2 ^ 32)
    (h : idlAccount discriminator authority payload rest =
      idlAccount discriminator' authority' payload' rest') : payload = payload' := by
  have hbytes : leBytes 4 payload.length = leBytes 4 payload'.length := by
    rw [← dataLen_idlAccount hdiscriminator hauthority, h,
      dataLen_idlAccount hdiscriminator' hauthority']
  have hlength := congrArg leNat hbytes
  rw [leNat_leBytes (by omega), leNat_leBytes (by omega)] at hlength
  have hcompressed := @compressed_idlAccount _ _ payload rest hdiscriminator hauthority
  rwa [h, hlength, compressed_idlAccount hdiscriminator' hauthority', eq_comm] at hcompressed

theorem eq_idlAccount {dataLen : Nat} (hlength : headerSize + dataLen ≤ data.length)
    (hdataLen : dataLen = leNat ((data.drop 40).take 4)) :
    data = idlAccount (data.take 8) ((data.drop 8).take 32)
      ((data.take (headerSize + dataLen)).drop headerSize) (data.drop (headerSize + dataLen)) := by
  have hpayload : (data.take (headerSize + dataLen)).drop headerSize =
      (data.drop headerSize).take dataLen := by
    rw [List.drop_take, Nat.add_sub_cancel_left]
  have hbytes : leBytes 4 ((data.drop headerSize).take dataLen).length =
      (data.drop 40).take 4 := by
    have hfour : ((data.drop 40).take 4).length = 4 := by
      rw [List.length_take, List.length_drop]
      have : headerSize = 44 := rfl
      omega
    have hcount : ((data.drop headerSize).take dataLen).length = dataLen := by
      rw [List.length_take, List.length_drop]
      omega
    have hinverse := leBytes_leNat ((data.drop 40).take 4)
    rwa [hfour, ← hdataLen, ← hcount] at hinverse
  rw [hpayload, idlAccount, hbytes]
  have h44 : data.drop headerSize = (data.drop headerSize).take dataLen ++
      data.drop (headerSize + dataLen) := by
    rw [← List.drop_drop, List.take_append_drop]
  have h40 : data.drop 40 = (data.drop 40).take 4 ++ data.drop headerSize := by
    conv_lhs => rw [← List.take_append_drop 4 (data.drop 40)]
    rw [List.drop_drop]
    rfl
  have h8 : data.drop 8 = (data.drop 8).take 32 ++ data.drop 40 := by
    conv_lhs => rw [← List.take_append_drop 32 (data.drop 8)]
    rw [List.drop_drop]
  conv_lhs => rw [← List.take_append_drop 8 data, h8, h40, h44]
  simp only [List.append_assoc]

theorem decompressIdlData_eq_ok_iff :
    decompressIdlData inflate data = .ok text ↔
      ∃ discriminator authority payload rest, discriminator.length = 8 ∧ authority.length = 32 ∧
        payload.length < 2 ^ 32 ∧ data = idlAccount discriminator authority payload rest ∧
        (inflate payload).bytes = utf8Bytes text ∧ (inflate payload).error = none ∧
        (utf8Bytes text).length < maxIdlSize := by
  constructor
  · intro h
    unfold decompressIdlData at h
    dsimp only at h
    split at h
    · cases h
    · split at h
      · cases h
      · rename_i hheader payloadEnd hend
        obtain ⟨-, rfl⟩ := checkedAdd_eq_some.mp hend
        split at h
        · cases h
        · rename_i hlength
          split at h
          · cases h
          · rename_i found hread
            split at h
            · cases h
            · rename_i hsmall
              cases h
              obtain ⟨hbytes, herror, hshort⟩ :=
                readToString_eq_ok_iff.mp ⟨hread, Nat.lt_of_not_le hsmall⟩
              have hfour : ((data.drop 40).take 4).length ≤ 4 := List.length_take_le ..
              have hlt := (leNat_lt ((data.drop 40).take 4)).trans_le
                (Nat.pow_le_pow_right (by decide) hfour)
              refine ⟨_, _, _, _, ?_, ?_, ?_, eq_idlAccount (Nat.le_of_not_lt hlength) rfl, hbytes,
                herror, Nat.lt_of_not_le hsmall⟩
              · rw [List.length_take]
                have : headerSize = 44 := rfl
                omega
              · rw [List.length_take, List.length_drop]
                have : headerSize = 44 := rfl
                omega
              · rw [List.length_drop, List.length_take]
                omega
  · rintro ⟨discriminator, authority, payload, rest, hdiscriminator, hauthority, hpayload, rfl,
      hbytes, herror, hsmall⟩
    have hlength := @length_idlAccount discriminator authority payload rest hdiscriminator
      hauthority
    have hread : readToString maxIdlSize (inflate payload) = .ok text :=
      (readToString_eq_ok_iff.mpr ⟨hbytes, herror, hbytes ▸ hsmall⟩).1
    have hdataLen : leNat ((idlAccount discriminator authority payload rest).drop 40 |>.take 4) =
        payload.length := by
      rw [dataLen_idlAccount hdiscriminator hauthority, leNat_leBytes (by omega)]
    have hadd : checkedAdd headerSize payload.length = some (headerSize + payload.length) := by
      refine checkedAdd_eq_some.mpr ⟨?_, rfl⟩
      have : headerSize = 44 := rfl
      have : usizeMax = 2 ^ 64 - 1 := rfl
      omega
    unfold decompressIdlData
    rw [if_neg (by omega), hdataLen]
    dsimp only
    rw [hadd]
    dsimp only
    rw [if_neg (by omega), compressed_idlAccount hdiscriminator hauthority, hread]
    dsimp only
    rw [if_neg (by omega)]

theorem decompressIdlData_eq_error {e : IdlError} (h : decompressIdlData inflate data = .error e) :
    ∃ message, e = .decompressionFailed message := by
  unfold decompressIdlData at h
  dsimp only at h
  repeat' split at h
  all_goals cases h
  all_goals exact ⟨_, rfl⟩

end Account

/-! ## A published IDL -/

structure CarriesAccount (base64 : Base64) (reply : HttpReply) (data : List UInt8) : Prop where
  carries : ∃ status body result value items, reply = .response status (.ok body) ∧
    isSuccess status = true ∧ (body.field? "error" = none ∨ body.field? "error" = some .null) ∧
    body.field? "result" = some result ∧ result.field? "value" = some value ∧
    value.field? "data" = some (.arr (.str (base64.encode data) :: items))

theorem CarriesAccount.fetch {env : FetchEnv} {programId address : String} {reply : HttpReply}
    {data : List UInt8} (hreply : CarriesAccount env.base64 reply data)
    (haddress : env.idlAddress programId = .ok address) :
    fetchIdlFromChain env programId reply = decompressIdlData env.inflate data := by
  obtain ⟨status, body, result, value, items, rfl, hstatus, herror, hresult, hvalue, hdata⟩ :=
    hreply.carries
  have htext : accountText value = some (env.base64.encode data) := by
    rw [accountText, hdata]
  have hpresent : (result.field? "value").filter (!isNull ·) = some value := by
    cases value with
    | obj entries => rw [hvalue]; rfl
    | _ => cases hdata
  have hnoError : (body.field? "error").filter (!isNull ·) = none := by
    rcases herror with herror | herror
    · rw [herror]
      rfl
    · rw [herror]
      rfl
  unfold fetchIdlFromChain
  rw [haddress]
  dsimp only
  rw [hstatus, hnoError, hresult]
  dsimp only
  rw [hpresent]
  dsimp only
  rw [htext]
  dsimp only
  rw [env.base64.decode_encode]
  rfl

theorem exists_account_of_fetch {env : FetchEnv} {programId text : String} {reply : HttpReply}
    (h : fetchIdlFromChain env programId reply = .ok text) :
    (∃ address, env.idlAddress programId = .ok address) ∧
      ∃ data, CarriesAccount env.base64 reply data ∧
        decompressIdlData env.inflate data = .ok text := by
  unfold fetchIdlFromChain at h
  split at h
  · cases h
  · cases h
  · rename_i address status body haddress
    refine ⟨⟨address, haddress⟩, ?_⟩
    split at h
    · cases h
    · rename_i hstatus
      split at h
      · cases h
      · rename_i response
        split at h
        · cases h
        · cases h
        · rename_i result hnoError hresult
          split at h
          · cases h
          · rename_i value hpresent
            obtain ⟨hvalue, -⟩ := Option.filter_eq_some_iff.mp hpresent
            split at h
            · cases h
            · rename_i encoded htext
              split at h
              · cases h
              · rename_i data hdata
                refine ⟨data, ⟨status, response, result, value, ?_⟩, h⟩
                have herror : response.field? "error" = none ∨
                    response.field? "error" = some .null := by
                  cases hfield : response.field? "error" with
                  | none => exact .inl rfl
                  | some error =>
                      rw [hfield] at hnoError
                      cases error <;> first | exact .inr rfl | cases hnoError
                unfold accountText at htext
                split at htext
                · rename_i items hitems
                  cases htext
                  rw [env.base64.encode_of_decode hdata]
                  exact ⟨items, rfl, by simpa using hstatus, herror, hresult, hvalue, hitems⟩
                · cases htext

/-- The accepted replies are those about an account that the program may have published: a
header, a payload of the length that the header says, and anything after it.  The text is what
the payload inflates to, all of it, and shorter than 16 MiB. -/
theorem fetch_idl_from_chain_eq_ok_iff (env : FetchEnv) (programId : String) (reply : HttpReply)
    (text : String) :
    fetchIdlFromChain env programId reply = .ok text ↔
      (∃ address, env.idlAddress programId = .ok address) ∧
        ∃ discriminator authority payload rest, discriminator.length = 8 ∧
          authority.length = 32 ∧ payload.length < 2 ^ 32 ∧
          CarriesAccount env.base64 reply (idlAccount discriminator authority payload rest) ∧
          (env.inflate payload).bytes = utf8Bytes text ∧ (env.inflate payload).error = none ∧
          (utf8Bytes text).length < maxIdlSize := by
  constructor
  · intro h
    obtain ⟨haddress, data, hreply, hdata⟩ := exists_account_of_fetch h
    obtain ⟨discriminator, authority, payload, rest, hdiscriminator, hauthority, hpayload, rfl,
      hinflate⟩ := decompressIdlData_eq_ok_iff.mp hdata
    exact ⟨haddress, discriminator, authority, payload, rest, hdiscriminator, hauthority,
      hpayload, hreply, hinflate⟩
  · rintro ⟨⟨address, haddress⟩, discriminator, authority, payload, rest, hdiscriminator,
      hauthority, hpayload, hreply, hinflate⟩
    rw [hreply.fetch haddress]
    exact decompressIdlData_eq_ok_iff.mpr ⟨discriminator, authority, payload, rest,
      hdiscriminator, hauthority, hpayload, rfl, hinflate⟩

/-- A program that has published its IDL and is not in the cache is served that text, byte for
byte and with its hash, unless the text has 16 MiB: then the bundled file is tried. -/
theorem published_idl_is_served (env : Externs) (codec : IdlCodec) (fetch : FetchEnv)
    (programId address : String) (haddress : fetch.idlAddress programId = .ok address)
    (discriminator authority payload rest : List UInt8) (hdiscriminator : discriminator.length = 8)
    (hauthority : authority.length = 32) (hpayload : payload.length < 2 ^ 32) (text : String)
    (hzlib : fetch.inflate payload = ⟨utf8Bytes text, none⟩) (reply : HttpReply)
    (hreply : CarriesAccount fetch.base64 reply (idlAccount discriminator authority payload rest))
    (bundled : FileReply) (manager : IdlManager) (hnew : manager.cache programId = none) :
    let served := (CacheM.getIdl env codec programId (fetchIdlFromChain fetch programId reply)
      (fetchIdlFromBundled programId bundled)).from manager
    ((utf8Bytes text).length < maxIdlSize →
      (∀ entry, readIdl env codec text .onChain = .ok entry →
        served = (.ok entry.idl, manager.insert programId entry)) ∧
      ∀ e, readIdl env codec text .onChain = .error e → served = (.error e, manager)) ∧
      (maxIdlSize ≤ (utf8Bytes text).length →
        (∀ idlJson, fetchIdlFromBundled programId bundled = .ok idlJson →
          served = (cacheIdl env codec programId idlJson .bundled).from manager) ∧
        ∀ e, fetchIdlFromBundled programId bundled = .error e →
          ∃ message, served = (.error (.decompressionFailed message), manager)) := by
  intro served
  have hserved : served = (CacheM.getIdl env codec programId
      (decompressIdlData fetch.inflate (idlAccount discriminator authority payload rest))
      (fetchIdlFromBundled programId bundled)).from manager := by
    rw [← hreply.fetch haddress]
  rw [from_getIdl, hnew] at hserved
  dsimp only at hserved
  constructor
  · intro hsmall
    have hok := decompressIdlData_eq_ok_iff.mpr
      ⟨discriminator, authority, payload, rest, hdiscriminator, hauthority, hpayload, rfl,
        congrArg Inflated.bytes hzlib, congrArg Inflated.error hzlib, hsmall⟩
    have hcached : served = (cacheIdl env codec programId text .onChain).from manager := by
      rw [hserved, hok]
      rfl
    rw [from_cacheIdl] at hcached
    constructor
    · intro entry hentry
      rw [hcached, hentry]
    · intro e he
      rw [hcached, he]
  · intro hlarge
    cases hresult : decompressIdlData fetch.inflate
        (idlAccount discriminator authority payload rest) with
    | ok found =>
        obtain ⟨discriminator', authority', payload', rest', hdiscriminator', hauthority',
          hpayload', hdata, hbytes, -, hsmall⟩ :=
            decompressIdlData_eq_ok_iff.mp hresult
        have hsame : payload' = payload := payload_unique hdiscriminator' hauthority' hpayload'
          hdiscriminator hauthority hpayload hdata.symm
        rw [hsame, hzlib] at hbytes
        have htext : utf8Bytes text = utf8Bytes found := hbytes
        rw [htext] at hlarge
        omega
    | error e =>
        obtain ⟨message, rfl⟩ := decompressIdlData_eq_error hresult
        rw [hresult] at hserved
        constructor
        · intro idlJson hbundled
          rw [hserved, hbundled]
          rfl
        · intro e hbundled
          refine ⟨message, ?_⟩
          rw [hserved, hbundled]
          rfl

/-! ### Stored blocks -/

def adler32 (bytes : List UInt8) : List UInt8 :=
  let sums := bytes.foldl (fun (a, b) byte =>
    ((a + byte.toNat) % 65521, (b + (a + byte.toNat) % 65521) % 65521)) (1, 0)
  (leBytes 2 sums.1 ++ leBytes 2 sums.2).reverse

def storedZlib (bytes : List UInt8) : List UInt8 :=
  [0x78, 0x01, 0x01] ++ leBytes 2 bytes.length ++ leBytes 2 (65535 - bytes.length) ++ bytes ++
    adler32 bytes

def inflateStored (payload : List UInt8) : Inflated :=
  let len := leNat ((payload.drop 3).take 2)
  let bytes := (payload.drop 7).take len
  if payload = storedZlib bytes then ⟨bytes, none⟩ else ⟨[], some "corrupt deflate stream"⟩

theorem inflateStored_storedZlib {bytes : List UInt8} (h : bytes.length < 65536) :
    inflateStored (storedZlib bytes) = ⟨bytes, none⟩ := by
  have hlen : ((storedZlib bytes).drop 3).take 2 = leBytes 2 bytes.length := by
    simp [storedZlib]
  have hheader : ([0x78, 0x01, 0x01] ++ leBytes 2 bytes.length ++
      leBytes 2 (65535 - bytes.length)).length = 7 := by
    simp
  have hbytes : ((storedZlib bytes).drop 7).take bytes.length = bytes := by
    rw [storedZlib, List.append_assoc _ bytes, List.drop_left' hheader, List.take_left' rfl]
  unfold inflateStored
  dsimp only
  rw [hlen, leNat_leBytes (by omega), hbytes, if_pos rfl]

def storedFetch : FetchEnv where
  idlAddress _ := .ok "address"
  statusText _ := ""
  jsonText _ := ""
  base64 := .standard
  inflate := inflateStored

def publishedAccount (text : String) : List UInt8 :=
  idlAccount (List.replicate 8 0) (List.replicate 32 1) (storedZlib (utf8Bytes text)) [0, 0]

def publishedReply (text : String) : HttpReply :=
  .response 200 (.ok (.obj [("result", .obj [("value", .obj [("data",
    .arr [.str (Base64.standard.encode (publishedAccount text)), .str "base64"])])])]))

theorem carriesAccount_publishedReply (text : String) :
    CarriesAccount .standard (publishedReply text) (publishedAccount text) :=
  ⟨200, _, _, _, _, rfl, rfl, .inl rfl, rfl, rfl, rfl⟩

theorem length_storedZlib (bytes : List UInt8) :
    (storedZlib bytes).length = bytes.length + 11 := by
  simp [storedZlib, adler32]
  omega

theorem published_idl_is_served_sample :
    ((CacheM.getIdl Externs.minimal IdlCodec.sample "prog"
        (fetchIdlFromChain storedFetch "prog" (publishedReply (sampleText "a")))
        (fetchIdlFromBundled "prog" .notFound)).from .empty).1 = .ok (sampleIdl "a") := by
  have hserved (text : String) (h : (utf8Bytes text).length < 65536) :=
    (published_idl_is_served Externs.minimal IdlCodec.sample storedFetch "prog" "address" rfl
      (List.replicate 8 0) (List.replicate 32 1) (storedZlib (utf8Bytes text)) [0, 0]
      List.length_replicate List.length_replicate (by rw [length_storedZlib]; omega) text
      (inflateStored_storedZlib h) _ (carriesAccount_publishedReply text) .notFound .empty rfl).1
      (h.trans (by decide))
  exact congrArg Prod.fst ((hserved (sampleText "a") (by decide +kernel)).1 _ rfl)

end Solarix.Registry
