import Waymux.Framing.Addresses
import Waymux.Framing.Base64
import Waymux.Bridge.ViewerList

/-!
# Viewer authentication of the bridge (`main.go`, `server.go`)

The jwt and uuid packages are parameters.
-/

namespace Waymux.Bridge.Authentication
open Framing.LengthPrefix Framing.Addresses

/- strings.TrimSpace -/
def isSpace (c : Char) : Bool :=
  c.toNat∈[0x09,0x0a,0x0b,0x0c,0x0d,0x20,0x85,0xa0,0x1680,0x2028,0x2029,0x202f,0x205f,0x3000] ||
    (0x2000≤c.toNat && c.toNat≤0x200a)

def trimSpace (s : String) : List Char := ((s.toList.dropWhile isSpace).reverse.dropWhile isSpace).reverse

/- base64.StdEncoding.DecodeString, which skips line ends. -/
def decodeString (s : List Char) : Option Bytes :=
  Framing.Base64.decode (s.filter fun c => c ≠ '\r' && c ≠ '\n')

def publicKeySize : Nat := 32

/- A variable that is not set reads as the empty string. -/
structure Env where
  viewerTokenEd25519Pk : String
  vmSessionId : String
  deriving DecidableEq, Repr

/- The empty key is the nil slice. -/
def viewerPubKey (raw : String) : Bytes :=
  if raw = "" then []
  else match decodeString (trimSpace raw) with
    | none => []
    | some decoded => if decoded.length≠publicKeySize then [] else decoded

def bindIsLoopback (bind : String) : Bool :=
  if bind = "" then false
  else match parseIP bind with
    | none => false
    | some ip => isLoopback ip

structure Config where
  viewerTokenPubKey : Bytes
  vmSessionId : String
  boundNonLoopback : Bool
  deriving DecidableEq, Repr

def config (env : Env) (bind : String) : Config where
  viewerTokenPubKey := viewerPubKey env.viewerTokenEd25519Pk
  vmSessionId := env.vmSessionId
  boundNonLoopback := !bindIsLoopback bind

/- A value of `jwt.MapClaims`; what is no string stands in its JSON text. -/
inductive Claim
  | text (s : String)
  | other (json : String)
  deriving DecidableEq, Repr

abbrev MapClaims := String → Option Claim

/- A `*jwt.Token`. `claims` is `none` when it holds no MapClaims. -/
structure Token where
  alg : String
  ed25519 : Bool
  claims : Option MapClaims
  valid : Bool

/- `content` is what a token string says, `verify` the signature check of a method. -/
structure Packages where
  parse : (now : Int) → (token : String) → (keyFunc : Token → Except String Bytes) →
    (validMethods : List String) → (audience : String) → Except String Token
  content : String → Option Token
  verify : (alg : String) → (key : Bytes) → (token : String) → Bool
  getAudience : MapClaims → Except String (List String)
  getExpirationTime : MapClaims → Option Int
  uuidParse : String → Except String Bytes

/-- `jwt.Parse` with the methods pinned and the expiry required. -/
structure Packages.Correct (P : Packages) : Prop where
  parsed : ∀ now str keyFunc methods audience tok,P.parse now str keyFunc methods audience=.ok tok →
    ∃ unverified,P.content str=some unverified ∧ tok.claims=unverified.claims ∧
      unverified.alg∈methods ∧
      (∃ key,keyFunc unverified=.ok key ∧ P.verify unverified.alg key str=true) ∧
      ∀ claims,tok.claims=some claims → ∃ exp,P.getExpirationTime claims=some exp ∧ now<exp

structure Request where
  query : List (String × String)
  deriving DecidableEq, Repr

def Request.get (r : Request) (key : String) : String := (r.query.lookup key).getD ""

/- `v, _ := claims[key].(string)` -/
def textClaim (claims : MapClaims) (key : String) : String :=
  match claims key with
  | some (.text s) => s
  | _ => ""

def keyFunc (cfg : Config) (t : Token) : Except String Bytes :=
  if t.ed25519 then .ok cfg.viewerTokenPubKey else .error ("unexpected signing method " ++ t.alg)

def checkClaims (P : Packages) (cfg : Config) (claims : MapClaims) : Except String Unit :=
  match P.getAudience claims with
  | .error e => .error ("jwt aud: " ++ e)
  | .ok aud =>
      if "viewer" ∉ aud then
        .error ("jwt aud does not contain \"viewer\" (got [" ++ " ".intercalate aud ++ "])")
      else match P.uuidParse (textClaim claims "sub") with
        | .error e => .error ("jwt sub not a UUID: " ++ e)
        | .ok _ =>
            if cfg.vmSessionId = "" then .error "bridge has no VMSessionID configured (cannot match token)"
            else if textClaim claims "vm_session_id" ≠ cfg.vmSessionId then
              .error ("vm_session_id claim mismatch (want " ++ cfg.vmSessionId.quote ++ " got " ++
                (textClaim claims "vm_session_id").quote ++ ")")
            else .ok ()

def validateViewerToken (P : Packages) (cfg : Config) (now : Int) (r : Request) : Except String Unit :=
  if cfg.viewerTokenPubKey.length=0 then
    if cfg.boundNonLoopback then
      .error ("no viewer-token public key configured and bridge is bound to a non-loopback address" ++
        " (fail-closed)")
    else .ok ()
  else
    let tokenStr:=r.get "token"
    if tokenStr = "" then .error "missing ?token= query param"
    else match P.parse now tokenStr (keyFunc cfg) ["EdDSA"] "viewer" with
      | .error e => .error ("jwt parse/validate: " ++ e)
      | .ok tok =>
          if !tok.valid then .error "jwt invalid (post-parse)"
          else match tok.claims with
            | none => .error "jwt claims not MapClaims"
            | some claims => checkClaims P cfg claims

inductive Answer
  | error (status : Nat) (text : String)
  | content (body : String)
  | upgrade
  deriving DecidableEq, Repr

/- `/ws` up to the end of the token check; the caps come after it. -/
def handleWS (P : Packages) (cfg : Config) (now : Int) (r : Request) : Answer :=
  match validateViewerToken P cfg now r with
  | .error _ => .error 401 "unauthorized"
  | .ok _ => .upgrade

def handleStatus (P : Packages) (cfg : Config) (now : Int) (r : Request) (s : ViewerList.Server) : Answer :=
  match validateViewerToken P cfg now r with
  | .error _ => .error 401 "unauthorized"
  | .ok _ => .content (ViewerList.status s).body

/- Set, and not the base64 form of 32 bytes. -/
def Malformed (raw : String) : Prop :=
  raw ≠ "" ∧ ∀ key,decodeString (trimSpace raw)=some key → key.length≠publicKeySize

def NoKey (env : Env) : Prop := env.viewerTokenEd25519Pk = "" ∨ Malformed env.viewerTokenEd25519Pk

def LoopbackBind (bind : String) : Prop := ∃ ip,parseIP bind=some ip ∧ Loopback ip

/-- Signed with EdDSA under the key, not expired, for viewers, with a UUID for its subject, of the session. -/
structure GoodToken (P : Packages) (cfg : Config) (now : Int) (str : String) : Prop where
  configured : cfg.viewerTokenPubKey≠[]
  signed : P.verify "EdDSA" cfg.viewerTokenPubKey str=true
  claims : ∃ tok claims exp aud id,P.content str=some tok ∧ tok.claims=some claims ∧
    P.getExpirationTime claims=some exp ∧ now<exp ∧
    P.getAudience claims=.ok aud ∧ "viewer" ∈ aud ∧
    P.uuidParse (textClaim claims "sub")=.ok id ∧
    cfg.vmSessionId ≠ "" ∧ textClaim claims "vm_session_id" = cfg.vmSessionId

variable {P : Packages} {cfg : Config} {env : Env} {bind raw : String} {now : Int} {r : Request}

theorem viewerPubKey_empty (raw : String) : viewerPubKey raw=[] ↔ raw = "" ∨ Malformed raw := by
  unfold viewerPubKey Malformed
  by_cases hr : raw = ""
  · simp [hr]
  · cases hd : decodeString (trimSpace raw) with
    | none => simp [hr]
    | some decoded =>
      by_cases hlen : decoded.length=publicKeySize
      · have hne : decoded≠[] := by
          rintro rfl
          cases hlen
        simp [hr,hlen,hne]
      · simp [hr,hlen]

theorem bindIsLoopback_iff (bind : String) : bindIsLoopback bind=true ↔ LoopbackBind bind := by
  unfold bindIsLoopback LoopbackBind
  by_cases hb : bind = ""
  · subst hb
    simp [parseIP]
  · rw [if_neg hb]
    cases hp : parseIP bind with
    | none => simp
    | some => simp [isLoopback_iff]

theorem checkClaims_ok {claims : MapClaims} (h : checkClaims P cfg claims=.ok ()) :
    ∃ aud id,P.getAudience claims=.ok aud ∧ "viewer" ∈ aud ∧
      P.uuidParse (textClaim claims "sub")=.ok id ∧
      cfg.vmSessionId ≠ "" ∧ textClaim claims "vm_session_id" = cfg.vmSessionId := by
  unfold checkClaims at h
  repeat' split at h
  all_goals cases h
  next aud ha hv _ id hid hs hm => exact ⟨aud,id,ha,not_not.mp hv,hid,hs,not_not.mp hm⟩

theorem validated (hP : P.Correct) (h : validateViewerToken P cfg now r=.ok ()) :
    GoodToken P cfg now (r.get "token") ∨ cfg.viewerTokenPubKey=[] ∧ cfg.boundNonLoopback=false := by
  unfold validateViewerToken at h
  split at h
  next hk =>
    split at h <;> cases h
    next hb => exact .inr ⟨List.length_eq_zero_iff.mp hk,by simpa using hb⟩
  next hk =>
    dsimp only at h
    repeat' split at h
    any_goals cases h
    next tok htok _ _ claims hclaims =>
      obtain ⟨unverified,hcontent,hsame,halg,⟨key,hkey,hver⟩,hexp⟩ := hP.parsed _ _ _ _ _ _ htok
      obtain ⟨exp,he,hnow⟩ := hexp claims hclaims
      obtain ⟨aud,id,ha,hv,hid,hs,hm⟩ := checkClaims_ok h
      have hc : ∃ tok claims exp aud id,P.content (r.get "token")=some tok ∧ tok.claims=some claims ∧
          P.getExpirationTime claims=some exp ∧ now<exp ∧ P.getAudience claims=.ok aud ∧
          "viewer" ∈ aud ∧ P.uuidParse (textClaim claims "sub")=.ok id ∧
          cfg.vmSessionId ≠ "" ∧ textClaim claims "vm_session_id" = cfg.vmSessionId :=
        ⟨unverified,claims,exp,aud,id,hcontent,hsame ▸ hclaims,he,hnow,ha,hv,hid,hs,hm⟩
      refine .inl ⟨mt List.length_eq_zero_iff.mpr hk,?_,hc⟩
      -- the key function gives out no key but the configured one
      unfold keyFunc at hkey
      split at hkey <;> cases hkey
      rw [List.mem_singleton.mp halg] at hver
      exact hver

theorem validated_config (hP : P.Correct) (h : validateViewerToken P (config env bind) now r=.ok ()) :
    GoodToken P (config env bind) now (r.get "token") ∨ NoKey env ∧ LoopbackBind bind := by
  refine (validated hP h).imp id fun ⟨hkey,hbind⟩ => ⟨(viewerPubKey_empty _).mp hkey,?_⟩
  rw [← bindIsLoopback_iff]
  simpa [config] using hbind

theorem refused_without_key (hk : NoKey env) (hb : ¬LoopbackBind bind) :
    ∃ e,validateViewerToken P (config env bind) now r=.error e := by
  have hkey : (config env bind).viewerTokenPubKey=[] := (viewerPubKey_empty _).mpr hk
  have hbind : (config env bind).boundNonLoopback=true := by
    have hnot : bindIsLoopback bind=false := by
      rw [← Bool.not_eq_true,bindIsLoopback_iff]
      exact hb
    simp [config,hnot]
  unfold validateViewerToken
  rw [hkey,if_pos List.length_nil,if_pos hbind]
  exact ⟨_,rfl⟩

/-- Nobody is let in without a good token unless the bridge has no key and listens on a loopback address;
with a malformed key elsewhere everybody gets 401. -/
theorem fails_closed {P : Packages} (hP : P.Correct) (env : Env) (bind : String) (now : Int) (r : Request)
    (s : ViewerList.Server) :
    (handleWS P (config env bind) now r=.upgrade ∨
        (∃ body,handleStatus P (config env bind) now r s=.content body) →
      GoodToken P (config env bind) now (r.get "token") ∨ NoKey env ∧ LoopbackBind bind) ∧
    (Malformed env.viewerTokenEd25519Pk → ¬LoopbackBind bind →
      handleWS P (config env bind) now r=.error 401 "unauthorized" ∧
        handleStatus P (config env bind) now r s=.error 401 "unauthorized") := by
  constructor
  · rintro (hws | ⟨body,hst⟩)
    · unfold handleWS at hws
      split at hws <;> cases hws
      exact validated_config hP ‹_›
    · unfold handleStatus at hst
      split at hst <;> cases hst
      exact validated_config hP ‹_›
  · intro hm hb
    obtain ⟨e,he⟩ := @refused_without_key P env bind now r (.inr hm) hb
    simp [handleWS,handleStatus,he]

/- Packages that know one token, which expires at 100 and is signed with the key of zeros. -/
def viewerClaims : MapClaims
  | "sub" => some (.text "00000000-0000-0000-0000-000000000000")
  | "vm_session_id" => some (.text "vm")
  | _ => none

def viewerToken : Token := ⟨"EdDSA",true,some viewerClaims,true⟩

def zeroKey : Bytes := List.replicate publicKeySize 0

def oneToken : Packages where
  parse now str keyFunc methods _ :=
    if str = "good" ∧ "EdDSA" ∈ methods ∧ now<100 then
      match keyFunc viewerToken with
      | .ok key => if key=zeroKey then .ok viewerToken else .error "token signature is invalid"
      | .error e => .error e
    else .error "token is malformed"
  content str := if str = "good" then some viewerToken else none
  verify alg key str := alg = "EdDSA" && key=zeroKey && str = "good"
  getAudience _ := .ok ["viewer"]
  getExpirationTime _ := some 100
  uuidParse s := if s.length=36 then .ok [] else .error "invalid UUID length"

theorem oneToken_correct : oneToken.Correct where
  parsed now str keyFunc methods audience tok h := by
    simp only [oneToken] at h ⊢
    split at h
    next hok =>
      obtain ⟨rfl,halg,hnow⟩ := hok
      split at h
      next key hkey =>
        split at h <;> cases h
        next hzero => exact ⟨_,rfl,rfl,halg,⟨key,hkey,by simp [viewerToken,hzero]⟩,fun _ _ => ⟨100,rfl,hnow⟩⟩
      · cases h
    · cases h

/- 32 zero bytes -/
def guarded : Env := ⟨"AAAAAAAAAAAAAAAAAAAAAAAAAAAAAAAAAAAAAAAAAAA=","vm"⟩

/-- The token lets its viewer in until it expires; without a key only a loopback bind does, and a key that is none
refuses everybody elsewhere. -/
theorem fails_closed_one_token : oneToken.Correct ∧
    handleWS oneToken (config guarded "0.0.0.0") 99 ⟨[("token", "good")]⟩=.upgrade ∧
    GoodToken oneToken (config guarded "0.0.0.0") 99 "good" ∧
    handleWS oneToken (config guarded "0.0.0.0") 100 ⟨[("token", "good")]⟩=.error 401 "unauthorized" ∧
    handleWS oneToken (config ⟨"",""⟩ "127.0.0.1") 0 ⟨[]⟩=.upgrade ∧
    (GoodToken oneToken (config ⟨"",""⟩ "127.0.0.1") 0 (Request.get ⟨[]⟩ "token") ∨
      NoKey ⟨"",""⟩ ∧ LoopbackBind "127.0.0.1") ∧
    handleWS oneToken (config ⟨"AAAA","vm"⟩ "0.0.0.0") 0 ⟨[("token", "good")]⟩=.error 401 "unauthorized" := by
  have hin : handleWS oneToken (config guarded "0.0.0.0") 99 ⟨[("token", "good")]⟩=.upgrade := by decide +kernel
  have hup : handleWS oneToken (config ⟨"",""⟩ "127.0.0.1") 0 ⟨[]⟩=.upgrade := by decide +kernel
  have hkey : ¬(NoKey guarded ∧ LoopbackBind "0.0.0.0") := by
    rw [← bindIsLoopback_iff]
    exact fun h => absurd h.2 (by decide +kernel)
  have hclosed:=fails_closed oneToken_correct guarded "0.0.0.0" 99 ⟨[("token", "good")]⟩ (ViewerList.init ⟨0,0⟩)
  have hopen:=fails_closed oneToken_correct ⟨"",""⟩ "127.0.0.1" 0 ⟨[]⟩ (ViewerList.init ⟨0,0⟩)
  exact ⟨oneToken_correct,hin,(hclosed.1 (.inl hin)).resolve_right hkey,by decide +kernel,hup,hopen.1 (.inl hup),
    by decide +kernel⟩

end Waymux.Bridge.Authentication
