import TinyChat.Core.WebsocketRead
import TinyChat.Text.Json
import TinyChat.Text.Numerals

/-! The login tokens of `core/request_handler.cpp`: `generate_login_token` signs them and
`extract_user_claims` reads them back. jwt-cpp is a parameter. -/
namespace TinyChat.Core

open TinyChat.Text

deriving instance DecidableEq for UserClaims

/-- The claims of the header or the payload of a token, the last one set first. -/
abbrev Claims := List (String × Json)

/-- A token as `jwt::decode` takes it apart. -/
structure DecodedJwt where
  /-- The text of header and payload, which the signature is made for. -/
  signingInput : String
  signature : String
  header : Claims
  payload : Claims

/-- What the service uses of jwt-cpp. -/
structure Jwt where
  decode : String → Except String DecodedJwt
  /-- The text of a header and a payload. -/
  encode : Claims → Claims → String
  /-- `jwt::algorithm::hs256{secret}`: the signature of a text. -/
  hs256 : String → String → String

/-- `jwt::builder`. -/
structure JwtBuilder where
  header : Claims := []
  payload : Claims := []

namespace JwtBuilder

def setHeaderClaim (name : String) (value : Json) (builder : JwtBuilder) : JwtBuilder :=
  { builder with header := (name, value) :: builder.header }

def setPayloadClaim (name : String) (value : Json) (builder : JwtBuilder) : JwtBuilder :=
  { builder with payload := (name, value) :: builder.payload }

def setType (type : String) : JwtBuilder → JwtBuilder := setHeaderClaim "typ" (.string type)

def setIssuer (issuer : String) : JwtBuilder → JwtBuilder := setPayloadClaim "iss" (.string issuer)

def setSubject (subject : String) : JwtBuilder → JwtBuilder :=
  setPayloadClaim "sub" (.string subject)

/-- With the time in seconds. -/
def setExpiresAt (expires : Int) : JwtBuilder → JwtBuilder := setPayloadClaim "exp" (.integer expires)

/-- `sign` adds the algorithm to the header before it encodes. -/
def signingInput (jwt : Jwt) (builder : JwtBuilder) : String :=
  jwt.encode (builder.setHeaderClaim "alg" (.string "HS256")).header builder.payload

def sign (jwt : Jwt) (secret : String) (builder : JwtBuilder) : String :=
  builder.signingInput jwt ++ "." ++ jwt.hs256 secret (builder.signingInput jwt)

end JwtBuilder

namespace DecodedJwt

/-- `get_subject`. -/
def subject (decoded : DecodedJwt) : Except String String :=
  Json.stringMember "sub" decoded.payload

/-- `get_payload_claim("username").as_string()`. -/
def username (decoded : DecodedJwt) : Except String String :=
  Json.stringMember "username" decoded.payload

/-- The token has an expiry and it is not over. -/
def Unexpired (now : Int) (decoded : DecodedJwt) : Prop :=
  ∃ expires, decoded.payload.lookup "exp" = some (.integer expires) ∧ now ≤ expires

end DecodedJwt

/-- One call of `generate_login_token`. -/
structure Login where
  username : String
  id : UInt64
  /-- `system_clock::now()` in seconds. -/
  time : Int
  deriving DecidableEq

namespace Login

def builder (login : Login) : JwtBuilder :=
  ({} : JwtBuilder)
    |>.setType "JWS"
    |>.setIssuer "tinychat_server"
    |>.setSubject (toDecimal login.id)
    |>.setExpiresAt (login.time + 24 * 30 * 3600)
    |>.setPayloadClaim "username" (.string login.username)

def generateLoginToken (jwt : Jwt) (secret : String) (login : Login) : String :=
  login.builder.sign jwt secret

@[simp] theorem builder_subject (login : Login) :
    login.builder.payload.lookup "sub" = some (.string (toDecimal login.id)) := rfl

@[simp] theorem builder_username (login : Login) :
    login.builder.payload.lookup "username" = some (.string login.username) := rfl

end Login

/-- `std::stoull` with its exceptions as texts. -/
def stoullOrThrow (text : String) : Except String UInt64 :=
  (stoull text).mapError fun _ => "stoull"

theorem stoullOrThrow_eq_ok_iff {text : String} {value : UInt64} :
    stoullOrThrow text = .ok value ↔ stoull text = .ok value := by
  unfold stoullOrThrow
  cases stoull text <;> simp [Except.mapError]

namespace Jwt

def extractUserClaims (jwt : Jwt) (token : String) : Except String UserClaims := do
  let decoded ← jwt.decode token
  if (decoded.payload.lookup "username").isNone then
    .error "Token does not contain username claim"
  else
    let id ← stoullOrThrow (← decoded.subject)
    let username ← decoded.username
    return { id, username }

/-- What jwt-cpp does with the tokens it has signed: it reads their claims back, and
what it reads of the payload depends on the signed text only. -/
structure Documented (jwt : Jwt) (secret : String) (logins : List Login) : Prop where
  decodes : ∀ login ∈ logins, ∃ decoded,
    jwt.decode (login.generateLoginToken jwt secret) = .ok decoded ∧
      decoded.signingInput = login.builder.signingInput jwt ∧
      decoded.payload = login.builder.payload
  payload : ∀ token other decoded copy, jwt.decode token = .ok decoded →
    jwt.decode other = .ok copy → decoded.signingInput = copy.signingInput →
    decoded.payload = copy.payload

/-- The signature check of `jwt::verify`. -/
def Signed (jwt : Jwt) (secret : String) (decoded : DecodedJwt) : Prop :=
  decoded.signature = jwt.hs256 secret decoded.signingInput

/-- HS256 is unforgeable: only what was signed carries a valid signature. -/
def Unforgeable (jwt : Jwt) (secret : String) (logins : List Login) : Prop :=
  ∀ token decoded, jwt.decode token = .ok decoded → jwt.Signed secret decoded →
    ∃ login ∈ logins, decoded.signingInput = login.builder.signingInput jwt

/-- The token is validly signed, not expired, and says of the user what a token that
`generate_login_token` issued for that user says. -/
structure Authentic (jwt : Jwt) (secret : String) (logins : List Login) (now : Int)
    (decoded : DecodedJwt) (claims : UserClaims) : Prop where
  signed : jwt.Signed secret decoded
  unexpired : decoded.Unexpired now
  issued : ∃ login ∈ logins, ∃ original,
    jwt.decode (login.generateLoginToken jwt secret) = .ok original ∧
      decoded.subject = original.subject ∧ decoded.username = original.username ∧
      login.id = claims.id ∧ login.username = claims.username

/-- The token does not parse, or its payload does not name a user. -/
def Unreadable (jwt : Jwt) (token : String) : Prop :=
  ∀ decoded, jwt.decode token = .ok decoded →
    (∀ subject id, decoded.subject = .ok subject → stoull subject ≠ .ok id) ∨
      ∀ username, decoded.username ≠ .ok username

/-- What `jwt::verify` would accept. -/
def Verified (jwt : Jwt) (secret : String) (now : Int) (token : String) : Prop :=
  ∃ decoded, jwt.decode token = .ok decoded ∧ jwt.Signed secret decoded ∧ decoded.Unexpired now

variable {jwt : Jwt} {secret token : String} {logins : List Login} {now : Int}
variable {claims : UserClaims} {decoded : DecodedJwt}

/-- The claims are those that the payload spells out, and nothing else is looked at. -/
theorem extractUserClaims_eq_ok_iff : jwt.extractUserClaims token = .ok claims ↔
    ∃ decoded subject, jwt.decode token = .ok decoded ∧ decoded.subject = .ok subject ∧
      stoull subject = .ok claims.id ∧ decoded.username = .ok claims.username := by
  cases parsed : jwt.decode token with
  | error what => simp [extractUserClaims, parsed, bind, Except.bind]
  | ok decoded =>
    cases named : decoded.payload.lookup "username" with
    | none =>
      simp [extractUserClaims, parsed, named, DecodedJwt.username, Json.stringMember_eq_ok_iff,
        bind, Except.bind]
    | some json =>
      cases subject : decoded.subject with
      | error what => simp [extractUserClaims, parsed, named, subject, bind, Except.bind]
      | ok text =>
        cases numbered : stoullOrThrow text with
        | error what =>
          have unread : ∀ id, stoull text ≠ .ok id := by
            intro id read
            simp [stoullOrThrow_eq_ok_iff.mpr read] at numbered
          simp [extractUserClaims, parsed, named, subject, numbered, unread, bind, Except.bind]
        | ok id =>
          have read := stoullOrThrow_eq_ok_iff.mp numbered
          cases username : decoded.username with
          | error what =>
            simp [extractUserClaims, parsed, named, subject, numbered, username, bind, Except.bind]
          | ok name =>
            obtain ⟨claimedId, claimedName⟩ := claims
            simp [extractUserClaims, parsed, named, subject, numbered, username, read, bind,
              Except.bind, pure, Except.pure]

/-- A verified token was issued for the user it names. -/
theorem authentic_of_verified (documented : jwt.Documented secret logins)
    (unforgeable : jwt.Unforgeable secret logins) (parsed : jwt.decode token = .ok decoded)
    (signed : jwt.Signed secret decoded) (unexpired : decoded.Unexpired now)
    (extracted : jwt.extractUserClaims token = .ok claims) :
    jwt.Authentic secret logins now decoded claims := by
  obtain ⟨login, found, sameInput⟩ := unforgeable token decoded parsed signed
  obtain ⟨original, reread, originalInput, originalPayload⟩ := documented.decodes login found
  have same : decoded.payload = original.payload :=
    documented.payload token _ decoded original parsed reread (sameInput.trans originalInput.symm)
  obtain ⟨other, text, again, subject, read, username⟩ := extractUserClaims_eq_ok_iff.mp extracted
  cases parsed.symm.trans again
  have sameSubject : text = toDecimal login.id := by
    have there := Json.stringMember_eq_ok_iff.mp subject
    simpa [same, originalPayload] using there.symm
  have sameName : claims.username = login.username := by
    have there := Json.stringMember_eq_ok_iff.mp username
    simpa [same, originalPayload] using there.symm
  have sameId : login.id = claims.id := by
    rw [sameSubject, stoull_toDecimal] at read
    exact Except.ok.inj read
  exact ⟨signed, unexpired, login, found, original, reread, by simp [DecodedJwt.subject, same],
    by simp [DecodedJwt.username, same], sameId, sameName.symm⟩

theorem extractUserClaims_ne_ok_iff :
    (∀ claims, jwt.extractUserClaims token ≠ .ok claims) ↔ jwt.Unreadable token := by
  simp only [ne_eq, extractUserClaims_eq_ok_iff]
  constructor
  · intro refused decoded parsed
    by_contra readable
    obtain ⟨⟨text, id, subject, read⟩, name, username⟩ :
        (∃ text id, decoded.subject = .ok text ∧ stoull text = .ok id) ∧
          ∃ name, decoded.username = .ok name := by
      simpa using readable
    exact refused ⟨id, name⟩ ⟨decoded, text, parsed, subject, read, username⟩
  · intro unreadable claims ⟨decoded, text, parsed, subject, read, username⟩
    rcases unreadable decoded parsed with noId | noName
    · exact noId text claims.id subject read
    · exact noName claims.username username

/-- A token gives claims only to the user it was issued for exactly if it gives none, or
if its signature and expiry, which nothing checks, happen to be in order. -/
theorem extractUserClaims_authentic_iff (documented : jwt.Documented secret logins)
    (unforgeable : jwt.Unforgeable secret logins) :
    (∀ claims, jwt.extractUserClaims token = .ok claims →
      ∃ decoded, jwt.decode token = .ok decoded ∧ jwt.Authentic secret logins now decoded claims) ↔
      jwt.Unreadable token ∨ jwt.Verified secret now token := by
  constructor
  · intro authentic
    by_cases refused : ∀ claims, jwt.extractUserClaims token ≠ .ok claims
    · exact .inl (extractUserClaims_ne_ok_iff.mp refused)
    · obtain ⟨claims, extracted⟩ : ∃ claims, jwt.extractUserClaims token = .ok claims := by
        simpa using refused
      obtain ⟨decoded, parsed, genuine⟩ := authentic claims extracted
      exact .inr ⟨decoded, parsed, genuine.signed, genuine.unexpired⟩
  · rintro (unreadable | ⟨decoded, parsed, signed, unexpired⟩) claims extracted
    · exact absurd extracted (extractUserClaims_ne_ok_iff.mpr unreadable claims)
    · exact ⟨decoded, parsed,
        authentic_of_verified documented unforgeable parsed signed unexpired extracted⟩

/-! A run of the service that has issued one token, to Alice. -/

private def alice : Login := { username := "alice", id := 7, time := 1700000000 }

private def aliceInput : String := "eyJ0eXAiOiJKV1MiLCJhbGciOiJIUzI1NiJ9." ++
  "eyJpc3MiOiJ0aW55Y2hhdF9zZXJ2ZXIiLCJzdWIiOiI3IiwiZXhwIjoxNzAyNTkyMDAwLCJ1c2VybmFtZSI6ImFsaWNlIn0"

private def aliceSignature : String := "qWYFUoB5C-6ThNB9vxf9eFtqPouL-6SiPbMEFwTydFg"

/-- The same header with the payload of a user 1 called root. -/
private def rootInput : String := "eyJ0eXAiOiJKV1MiLCJhbGciOiJIUzI1NiJ9." ++
  "eyJpc3MiOiJ0aW55Y2hhdF9zZXJ2ZXIiLCJzdWIiOiIxIiwiZXhwIjoxNzAyNTkyMDAwLCJ1c2VybmFtZSI6InJvb3QifQ"

private def aliceToken : String := aliceInput ++ "." ++ aliceSignature

/-- Signed with three zero bytes. -/
private def rootToken : String := rootInput ++ "." ++ "AAAA"

private def header : Claims := [("alg", .string "HS256"), ("typ", .string "JWS")]

private def aliceDecoded : DecodedJwt :=
  { signingInput := aliceInput, signature := aliceSignature, header
    payload := [("username", .string "alice"), ("exp", .integer 1702592000),
      ("sub", .string "7"), ("iss", .string "tinychat_server")] }

private def rootDecoded : DecodedJwt :=
  { signingInput := rootInput, signature := "AAAA", header
    payload := [("username", .string "root"), ("exp", .integer 1702592000),
      ("sub", .string "1"), ("iss", .string "tinychat_server")] }

/-- What jwt-cpp does with these two tokens under the secret `secret`. -/
private def sampleJwt : Jwt where
  decode token :=
    if token = aliceToken then .ok aliceDecoded
    else if token = rootToken then .ok rootDecoded
    else .error "invalid token supplied"
  encode _ _ := aliceInput
  hs256 _ input :=
    if input = aliceInput then aliceSignature else "AWzfSYerGFZnGolVGx9tydM4CuIE1zOea6kx9A1RW34"

private theorem rootToken_ne : rootToken ≠ aliceToken := by decide +kernel

private theorem rootInput_ne : rootInput ≠ aliceInput := by decide +kernel

private theorem decode_aliceToken : sampleJwt.decode aliceToken = .ok aliceDecoded := by
  simp [sampleJwt]

private theorem decode_rootToken : sampleJwt.decode rootToken = .ok rootDecoded := by
  simp [sampleJwt, rootToken_ne]

private theorem sampleJwt_decode {token : String} {decoded : DecodedJwt}
    (parsed : sampleJwt.decode token = .ok decoded) :
    decoded = aliceDecoded ∨ decoded = rootDecoded := by
  simp only [sampleJwt] at parsed
  split at parsed
  · exact .inl (Except.ok.inj parsed).symm
  · split at parsed
    · exact .inr (Except.ok.inj parsed).symm
    · cases parsed

private theorem aliceDecoded_signed : sampleJwt.Signed "secret" aliceDecoded := by
  simp [Signed, sampleJwt, aliceDecoded]

private theorem rootDecoded_unsigned : ¬ sampleJwt.Signed "secret" rootDecoded := by
  simp [Signed, sampleJwt, rootDecoded, rootInput_ne]

private theorem generate_aliceToken : alice.generateLoginToken sampleJwt "secret" = aliceToken := by
  simp [Login.generateLoginToken, JwtBuilder.sign, JwtBuilder.signingInput, sampleJwt, aliceToken]

private theorem sampleJwt_documented : sampleJwt.Documented "secret" [alice] where
  decodes login found := by
    obtain rfl : login = alice := by simpa using found
    exact ⟨aliceDecoded, generate_aliceToken ▸ decode_aliceToken, rfl, rfl⟩
  payload token other decoded copy parsed reread same := by
    rcases sampleJwt_decode parsed with rfl | rfl <;>
      rcases sampleJwt_decode reread with rfl | rfl
    · rfl
    · exact absurd same.symm rootInput_ne
    · exact absurd same rootInput_ne
    · rfl

private theorem sampleJwt_unforgeable : sampleJwt.Unforgeable "secret" [alice] := by
  intro token decoded parsed signed
  rcases sampleJwt_decode parsed with rfl | rfl
  · exact ⟨alice, by simp, rfl⟩
  · exact absurd signed rootDecoded_unsigned

theorem extractUserClaims_authentic_alice :
    sampleJwt.Verified "secret" 1700000001 aliceToken ∧
      ∀ claims, sampleJwt.extractUserClaims aliceToken = .ok claims →
        ∃ decoded, sampleJwt.decode aliceToken = .ok decoded ∧
          sampleJwt.Authentic "secret" [alice] 1700000001 decoded claims := by
  have verified : sampleJwt.Verified "secret" 1700000001 aliceToken :=
    ⟨aliceDecoded, decode_aliceToken, aliceDecoded_signed, 1702592000, rfl, by decide⟩
  exact ⟨verified, (extractUserClaims_authentic_iff sampleJwt_documented
    sampleJwt_unforgeable).mpr (.inr verified)⟩

/-- A token that nobody signed makes its bearer user 1. -/
theorem forged_token_accepted :
    ¬ ∀ (jwt : Jwt) (secret : String) (logins : List Login) (now : Int) (token : String),
      jwt.Documented secret logins → jwt.Unforgeable secret logins →
      ∀ claims, jwt.extractUserClaims token = .ok claims →
        ∃ decoded, jwt.decode token = .ok decoded ∧
          jwt.Authentic secret logins now decoded claims := by
  intro claimed
  have extracted : sampleJwt.extractUserClaims rootToken =
      .ok { id := 1, username := "root" } :=
    extractUserClaims_eq_ok_iff.mpr ⟨rootDecoded, "1", decode_rootToken, rfl, by decide, rfl⟩
  obtain ⟨decoded, parsed, genuine⟩ := claimed sampleJwt "secret" [alice] 1700000001 rootToken
    sampleJwt_documented sampleJwt_unforgeable _ extracted
  cases decode_rootToken.symm.trans parsed
  exact rootDecoded_unsigned genuine.signed

end Jwt

end TinyChat.Core
