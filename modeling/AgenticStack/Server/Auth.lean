import AgenticStack.Library.AssocList
import AgenticStack.Library.Text

/-!
# The verification keys of the OIDC provider

The keys are cached, and refreshed by one call at a time. A call runs between its
awaits in one piece as far as the others can see, except that the new keys are
visible before the refresh is recorded. An instant is a number of nanoseconds.
-/

namespace AgenticStack.Server
set_option autoImplicit false
open Library

/-- A number of seconds on the nanosecond clock. -/
def secs (n : Nat) : Nat := n * 1000000000

/-- How long a failed refresh keeps the next one away. -/
def JWKS_REFRESH_COOLDOWN : Nat := secs 30

/-- How long after a refresh that brought no new key the waiting calls reuse its result. -/
def JWKS_REFRESH_COALESCE_WINDOW : Nat := secs 1

/-- How long a call waits for a refresh that another call is making. -/
def JWKS_REFRESH_WAIT_TIMEOUT : Nat := secs 1

/-- The most keys a JWKS document may hold. -/
def MAX_JWKS_KEYS : Nat := 100

/-- The errors that reading a JWKS document or looking a key up can give. -/
inductive OidcAuthError where
  | jwksRequest
  | providerResponseTooLarge
  | invalidProviderJson
  | emptyJwks
  | tooManyJwksKeys
  | duplicateKeyId (kid : Text)
  | jwksRefreshBackoff
  | unknownKeyId
deriving DecidableEq, Repr

/-- The signature algorithms a key may be declared for. -/
inductive Algorithm where
  | es256 | es384 | rs256 | rs384 | rs512 | ps256 | ps384 | ps512 | edDSA
deriving DecidableEq, Repr

/-- What the metadata of a key allows it to verify. -/
inductive VerificationAlgorithm where
  | skip
  | anyAsymmetric
  | exact (algorithm : Algorithm)

/-- A key of the provider; `decoding_key` is `none` where none can be made of it. -/
structure Jwk (K : Type) where
  key_id : Option Text
  verification : VerificationAlgorithm
  decoding_key : Option K

/-- A compiled decoding key with the algorithm its JWK names, if it names one. -/
structure CachedKey (K : Type) where
  decoding_key : K
  algorithm : Option Algorithm

/-- The compiled keys by `kid`, and the time they are used until. -/
structure CachedJwks (K : Type) where
  keys : List (Text × CachedKey K)
  expires_at : Nat

section
variable {K : Type}

/-- The entry of a key that can be used. -/
def Jwk.compile (key : Jwk K) : Option (Text × CachedKey K) :=
  match key.key_id, key.verification, key.decoding_key with
  | some kid, .anyAsymmetric, some decoding_key => some (kid, { decoding_key, algorithm := none })
  | some kid, .exact algorithm, some decoding_key => some (kid, { decoding_key, algorithm := some algorithm })
  | _, _, _ => none

/-- Compiles the keys in order: an unusable key is skipped, a repeated `kid` is an error. -/
def compileKeys (compiled : List (Text × CachedKey K)) : List (Jwk K) → Except OidcAuthError (List (Text × CachedKey K))
  | [] => .ok compiled
  | key :: rest => match key.compile with
    | none => compileKeys compiled rest
    | some (kid, cached) =>
      if (compiled.lookup kid).isSome then .error (.duplicateKeyId kid) else compileKeys (compiled ++ [(kid, cached)]) rest

/-- Compiles a whole document, which must hold between one and `MAX_JWKS_KEYS` keys and one usable key. -/
def compileJwks (keys : List (Jwk K)) (ttl now : Nat) : Except OidcAuthError (CachedJwks K) :=
  if keys.isEmpty then .error .emptyJwks
  else if keys.length > MAX_JWKS_KEYS then .error .tooManyJwksKeys
  else match compileKeys [] keys with
    | .error error => .error error
    | .ok compiled => if compiled.isEmpty then .error .emptyJwks else .ok { keys := compiled, expires_at := now + ttl }

/-- `fetch_jwks` with what the provider has answered: its keys and their time to live. -/
def fetchJwks (answer : Except OidcAuthError (List (Jwk K) × Nat)) (now : Nat) : Except OidcAuthError (CachedJwks K) :=
  match answer with
  | .error error => .error error
  | .ok (keys, ttl) => compileJwks keys ttl now

/-- What the authenticator remembers of the last refreshes. -/
structure RefreshState where
  last_completed : Nat
  retry_after : Option Nat
  coalesce_until : Option Nat

/-- `drop` of an attempt that has neither failed nor been completed. -/
def RefreshState.dropAttempt (s : RefreshState) (retry_after : Nat) : RefreshState :=
  if s.retry_after = some retry_after then { s with retry_after := none } else s

/-- Where a call of `verification_key` stands. From `admitted` to `installed` it holds
the permit; `retry_after` is that of its attempt. -/
inductive KeyCall (K : Type) where
  /-- Before the first look at the cache. -/
  | reading (kid : Text)
  | waiting (kid : Text) (deadline : Nat)
  /-- Before the look at the cache under the permit. -/
  | admitted (kid : Text)
  /-- Allowed to refresh. -/
  | cleared (kid : Text)
  /-- The keys are being fetched. -/
  | refreshing (kid : Text) (retry_after : Nat)
  /-- Waits for the lock of the cache. -/
  | fetched (kid : Text) (retry_after : Nat) (refreshed : CachedJwks K)
  /-- The keys are in the cache, and nothing is recorded yet. -/
  | installed (kid : Text) (retry_after : Nat) (key : Option (CachedKey K))
  | returned (kid : Text) (result : Except OidcAuthError (CachedKey K))
  | cancelled

/-- What happened to the refreshes: history, not part of the code's state. -/
inductive RefreshEvent (K : Type) where
  | started (call : Nat) (kid : Text) (instant : Nat)
  | failed (call : Nat) (retry_after : Nat)
  | cancelled (call : Nat)
  /-- `none` is the discovery. -/
  | completed (call : Option Nat) (instant : Nat) (jwks : CachedJwks K)

/-- The shared state of the authenticator: the clock, the cache, the gate and the calls under way. -/
structure OidcAuthenticator (K : Type) where
  now : Nat
  keys : CachedJwks K
  refresh_state : RefreshState
  /-- The call that holds the only permit of the semaphore. -/
  refresh_gate : Option Nat
  calls : List (KeyCall K)
  log : List (RefreshEvent K)

/-- One step of the clock or of one call. -/
inductive KeyOp (K : Type) where
  | tick (elapsed : Nat)
  | call (kid : Text)
  | lookup (i : Nat)
  | acquire (i : Nat)
  | timeOut (i : Nat)
  | check (i : Nat)
  | start (i : Nat)
  | answer (i : Nat) (answer : Except OidcAuthError (List (Jwk K) × Nat))
  | install (i : Nat)
  | record (i : Nat)
  /-- The future of the call is dropped at an await. -/
  | cancel (i : Nat)

/-- A call's result for a key that was looked up. -/
def knownKey (key : Option (CachedKey K)) : Except OidcAuthError (CachedKey K) :=
  match key with
  | some key => .ok key
  | none => .error .unknownKeyId

namespace OidcAuthenticator

/-- The authenticator after start-up discovery. -/
def discover (jwks : CachedJwks K) (now : Nat) : OidcAuthenticator K :=
  { now, keys := jwks, refresh_state := { last_completed := now, retry_after := none, coalesce_until := none }
    refresh_gate := none, calls := [], log := [.completed none now jwks] }

variable (w : OidcAuthenticator K)

/-- Whether the cache has not expired. -/
def fresh : Bool := w.now < w.keys.expires_at

/-- Puts a call in its next state. -/
def setCall (i : Nat) (call : KeyCall K) : OidcAuthenticator K := { w with calls := w.calls.set i call }

/-- The call ends and drops the permit. -/
def leave (i : Nat) (call : KeyCall K) : OidcAuthenticator K := { w.setCall i call with refresh_gate := none }

/-- What the look at the cache under the permit decides; `none` is to refresh. -/
def decision (kid : Text) : Option (Except OidcAuthError (CachedKey K)) :=
  if w.fresh && (w.keys.keys.lookup kid).isSome then some (knownKey (w.keys.keys.lookup kid))
  else if w.fresh && decide (w.now - w.refresh_state.last_completed < JWKS_REFRESH_COOLDOWN) then some (.error .unknownKeyId)
  else if w.refresh_state.coalesce_until.any (w.now < ·) then some (knownKey (w.keys.keys.lookup kid))
  else if w.refresh_state.retry_after.any (w.now < ·) then some (.error .jwksRefreshBackoff)
  else none

/-- A call dropped while it refreshes: the attempt is recorded and the gate freed. -/
def cancelRefresh (i : Nat) (retry_after : Nat) : OidcAuthenticator K :=
  { w.leave i .cancelled with
    refresh_state := w.refresh_state.dropAttempt retry_after, log := w.log ++ [.cancelled i] }

/-- One step: the clock, or one call up to its next await. -/
def step : KeyOp K → OidcAuthenticator K
  | .tick elapsed => { w with now := w.now + elapsed }
  | .call kid => { w with calls := w.calls ++ [.reading kid] }
  | .lookup i => match w.calls[i]? with
    | some (.reading kid) =>
      if w.fresh && (w.keys.keys.lookup kid).isSome then w.setCall i (.returned kid (knownKey (w.keys.keys.lookup kid)))
      else w.setCall i (.waiting kid (w.now + JWKS_REFRESH_WAIT_TIMEOUT))
    | _ => w
  | .acquire i => match w.calls[i]?, w.refresh_gate with
    | some (.waiting kid _), none => { w.setCall i (.admitted kid) with refresh_gate := some i }
    | _, _ => w
  | .timeOut i => match w.calls[i]? with
    | some (.waiting kid deadline) =>
      if deadline ≤ w.now then w.setCall i (.returned kid (.error .jwksRefreshBackoff)) else w
    | _ => w
  | .check i => match w.calls[i]? with
    | some (.admitted kid) => match w.decision kid with
      | some result => w.leave i (.returned kid result)
      | none => w.setCall i (.cleared kid)
    | _ => w
  | .start i => match w.calls[i]? with
    | some (.cleared kid) =>
      let retry_after := w.now + JWKS_REFRESH_COOLDOWN
      { w.setCall i (.refreshing kid retry_after) with
        refresh_state := { w.refresh_state with retry_after := some retry_after }, log := w.log ++ [.started i kid w.now] }
    | _ => w
  | .answer i answer => match w.calls[i]? with
    | some (.refreshing kid retry_after) => match fetchJwks answer w.now with
      | .error error => { w.leave i (.returned kid (.error error)) with log := w.log ++ [.failed i retry_after] }
      | .ok refreshed => w.setCall i (.fetched kid retry_after refreshed)
    | _ => w
  | .install i => match w.calls[i]? with
    | some (.fetched kid retry_after refreshed) =>
      { w.setCall i (.installed kid retry_after (refreshed.keys.lookup kid)) with keys := refreshed }
    | _ => w
  | .record i => match w.calls[i]? with
    | some (.installed kid _ key) =>
      { w.leave i (.returned kid (knownKey key)) with
        refresh_state :=
          { last_completed := w.now, retry_after := none, coalesce_until := some (w.now + JWKS_REFRESH_COALESCE_WINDOW) }
        log := w.log ++ [.completed (some i) w.now w.keys] }
    | _ => w
  | .cancel i => match w.calls[i]? with
    | some (.reading _) | some (.waiting ..) => w.setCall i .cancelled
    | some (.admitted _) => w.leave i .cancelled
    | some (.refreshing _ retry_after) | some (.fetched _ retry_after _) => w.cancelRefresh i retry_after
    | _ => w

/-- The steps of `ops` in order. -/
def run (ops : List (KeyOp K)) : OidcAuthenticator K := ops.foldl step w

end OidcAuthenticator
end
end AgenticStack.Server
