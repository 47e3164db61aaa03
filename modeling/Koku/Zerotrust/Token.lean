import Koku.Error

/-! # Enrolment tokens

`zerotrust.rs`: how a token is recognized (`looksLikeJwt`), found in a page and judged, and the ways
to sign in to a team (`signInWay`). Base64 and JSON are read by libraries (`Libs`). -/

namespace Koku.Zerotrust

open Rust.Str

/-- What the libraries find in a token: the bytes of a segment, and the number `exp` of a
payload. -/
structure Libs where
  decodeSegment : Text → Option (List UInt8)
  exp : List UInt8 → Option ℕ

/-! ### Recognizing a token -/

/-- `looks_like_jwt`: three parts in base64, the first of which decodes. -/
def looksLikeJwt (lib : Libs) (token : Text) : Bool :=
  let token := trim token
  let segments := split '.' token
  if len token < 32 then false
  else if segments.length ≠ 3 then false
  else if segments.any (· = []) then false
  else if !token.all fun c => c.isAlphanum || c = '.' || c = '-' || c = '_' then false
  else (lib.decodeSegment (segments.headD [])).isSome

/-- `jwt_expiry`. -/
def jwtExpiry (lib : Libs) (token : Text) : Option ℕ :=
  match split '.' token with
  | [_, payload, _] => (lib.decodeSegment payload).bind lib.exp
  | _ => none

/-- `jwt_expired`. -/
def jwtExpired (lib : Libs) (token : Text) (now : ℕ) : Bool :=
  match jwtExpiry lib token with
  | some exp => exp ≤ now
  | none => false

def endsToken (c : Char) : Bool := c = '"' || c = '\'' || c = '&' || c = '<' || isWhitespace c

/-- `extract_jwt_from_html`. -/
def extractJwtFromHtml (lib : Libs) (html : Text) : Option Text :=
  (splitOnce "token=".toList html).bind fun (_, rest) =>
    let candidate := trim (rest.takeWhile fun c => !endsToken c)
    if looksLikeJwt lib candidate then some candidate else none

theorem trim_of_extract {lib : Libs} {html token : Text}
    (h : extractJwtFromHtml lib html = some token) : trim token = token := by
  obtain ⟨⟨before, rest⟩, -, h⟩ := Option.bind_eq_some_iff.mp h
  dsimp only at h
  split_ifs at h
  cases h
  exact trim_trim _

/-! ### Signing in -/

/-- `TeamSettings`. -/
structure TeamSettings where
  team : Text
  clientId : Option Text
  clientSecret : Option Text
  token : Option Text
  email : Option Text
  deriving DecidableEq

/-- `TeamSettings::has_service_token`. -/
def TeamSettings.hasServiceToken (settings : TeamSettings) : Bool :=
  settings.clientId.isSome && settings.clientSecret.isSome

/-- The page to sign in at, on the `team_domain`. -/
def TeamSettings.loginUrl (settings : TeamSettings) : Text :=
  "https://".toList ++ settings.team ++ ".cloudflareaccess.com/warp".toList

def notJwt : AetherError :=
  .api "that value is not a jwt; copy the value that follows token= on the enrolment page".toList

def alreadyExpired : AetherError :=
  .api "that token has already expired; sign in again to get a fresh one".toList

def suppliedNotJwt : AetherError :=
  .api ("the supplied access token is not a jwt; copy the value that follows token= " ++
    "on the enrolment page").toList

def suppliedExpired : AetherError :=
  .api "the supplied access token has expired; sign in again to get a fresh one".toList

def noWayToSignIn (settings : TeamSettings) : AetherError :=
  .api ("team ".toList ++ settings.team ++
    (" needs a way to sign in. pick one: a service token via " ++
    "AETHER_ACCESS_CLIENT_ID and AETHER_ACCESS_CLIENT_SECRET, an email one-time code via " ++
    "AETHER_ACCESS_EMAIL, or a token you already hold via AETHER_ACCESS_TOKEN " ++
    "(sign in at ").toList ++ settings.loginUrl ++ ")".toList)

/-- The way `sign_in` takes: a token that is supplied, or a sign-in to the team with its service
token or an email code. -/
inductive Way
  | supplied (token : Text)
  | service
  | email (address : Text)

/-- The choice of `sign_in`. -/
def signInWay (lib : Libs) (settings : TeamSettings) (now : ℕ) : Except AetherError Way :=
  match settings.token with
  | some token =>
    if !looksLikeJwt lib token then .error suppliedNotJwt
    else if jwtExpired lib token now then .error suppliedExpired
    else .ok (.supplied token)
  | none =>
    if settings.hasServiceToken then .ok .service
    else match settings.email with
      | some address => .ok (.email address)
      | none => .error (noWayToSignIn settings)

theorem token_of_supplied {lib : Libs} {settings : TeamSettings} {now : ℕ} {token : Text}
    (h : signInWay lib settings now = .ok (.supplied token)) : settings.token = some token := by
  unfold signInWay at h
  split at h
  · rename_i supplied hsupplied
    split_ifs at h
    cases h
    exact hsupplied
  · split_ifs at h
    · cases h
    · split at h <;> cases h

/-- The checks of `store_token`: what it puts into the cache. -/
def storable (lib : Libs) (token : Text) (now : ℕ) : Except AetherError Text :=
  let token := trim token
  if !looksLikeJwt lib token then .error notJwt
  else if jwtExpired lib token now then .error alreadyExpired
  else .ok token

theorem storable_eq_ok {lib : Libs} {token stored : Text} {now : ℕ}
    (h : storable lib token now = .ok stored) : stored = trim token := by
  unfold storable at h
  dsimp only at h
  split_ifs at h
  cases h
  rfl

end Koku.Zerotrust
