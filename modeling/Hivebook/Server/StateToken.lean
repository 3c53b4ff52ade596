import Mathlib.Data.List.TakeWhile
import Hivebook.Lib.Base64url
import Hivebook.Server.Oauth

/-!
# The signed state, byte by byte

`Signer.Sign` and `Signer.Verify` of `internal/oauth/oauth.go`, over the bytes of a token.  A token
is cut at its first dot; both segments are base64url, which a reader decodes leniently; and the MAC
is over the segment as it stands, before it is decoded.  JSON and HMAC-SHA256 are the standard
library's, and `StateLib` carries what the code relies on.

A token is arbitrary bytes, so nothing is known of one but what `Verify` checks.  That a MAC comes
from nobody but the signer is an assumption about the token, not a fact about the code.

## Main definitions

* `StateSigner` — a signer with its key; `newSigner` makes one.
* `StateSigner.sign`, `StateSigner.verify` — the two operations.
* `SignCall` — a call of `Sign`; `Unforged` — a token carries no MAC that no call has computed.
* `StateSigner.toSigner` — the signer as the connect flow sees it, over strings.

## Main results

* `verify_token` — what `Verify` says of a token that was signed.
* `signed_of_verify` — an accepted token was cut out of a signed one.
* `signed_state_faithful` — **signed state comes back as it was signed, and no other does.**
* `verify_toSigner` — the signer over strings is the one over bytes.
-/

namespace Hivebook

/-- What the code relies on of `encoding/json` and `crypto/hmac`. -/
structure StateLib where
  /-- `json.Marshal(st)`. -/
  marshal : SignedState → Bytes
  /-- `json.Unmarshal(payload, &st)`. -/
  unmarshal : Bytes → Option SignedState
  unmarshal_marshal : ∀ st, unmarshal (marshal st) = some st
  /-- HMAC-SHA256 of a message under a key. -/
  hmac : (key msg : Bytes) → Bytes

/-- `oauth.Signer`: its key is not empty. -/
structure StateSigner where
  key : Bytes
  key_ne_nil : key ≠ []

/-- `NewSigner`. -/
def newSigner (key : Bytes) : Except Err StateSigner :=
  if h : key = [] then .error (.failed "state key must not be empty") else .ok ⟨key, h⟩

/-- `strings.Cut(s, ".")`, on bytes. -/
def cutDot (s : Bytes) : Option (Bytes × Bytes) :=
  match s.dropWhile (· ≠ 46) with
  | [] => none
  | _ :: rest => some (s.takeWhile (· ≠ 46), rest)

/-- `t.Unix()`, also of an instant before 1970. -/
def unixOf (t : ℤ) : ℤ := t / (second : ℤ)

/-- A call of `Sign` that has drawn its nonce. -/
structure SignCall where
  tenant : String
  region : String
  connector : String
  /-- May be negative. -/
  ttl : ℤ
  now : Time
  /-- The random bytes. -/
  nonce : Bytes

/-- `time.Now().Add(ttl).Unix()`. -/
def SignCall.exp (c : SignCall) : ℤ := unixOf (c.now + c.ttl)

/-- The state that is signed; its nonce is base64url, which is ASCII. -/
def SignCall.state (c : SignCall) : SignedState where
  tenant := c.tenant
  region := c.region
  connector := c.connector
  nonce := String.ofList ((Base64url.encodeToString c.nonce).map fun b => Char.ofNat b.toNat)
  exp := c.exp

namespace StateSigner

variable (L : StateLib) (s : StateSigner)

/-- `Signer.mac`. -/
def mac (msg : Bytes) : Bytes := L.hmac s.key msg

/-- The payload segment of a state. -/
def segment (st : SignedState) : Bytes := Base64url.encodeToString (L.marshal st)

/-- `enc + "." + b64.EncodeToString(s.mac(enc))`. -/
def token (st : SignedState) : Bytes :=
  segment L st ++ 46 :: Base64url.encodeToString (s.mac L (segment L st))

/-- `Signer.Sign`: `rand` says whether the random bytes could be read. -/
def sign (rand : Except Err Unit) (c : SignCall) : Except Err Bytes :=
  match rand with
  | .error e => .error e
  | .ok _ => .ok (s.token L c.state)

/-- `Signer.Verify`. -/
def verify (now : Time) (tok : Bytes) : Except Err SignedState :=
  match cutDot tok with
  | none => .error (.failed "malformed state")
  | some (enc, macPart) =>
      match Base64url.decodeString macPart with
      | none => .error (.failed "malformed state mac")
      | some gotMAC =>
          if gotMAC ≠ s.mac L enc then .error (.failed "bad state signature")
          else
            match Base64url.decodeString enc with
            | none => .error (.failed "malformed state payload")
            | some payload =>
                match L.unmarshal payload with
                | none => .error (.failed "malformed state payload")
                | some st =>
                    if st.exp < unix now then .error (.failed "state expired") else .ok st

/-- No MAC is presented for a message that no call of `Sign` has computed it of. -/
def Unforged (calls : List SignCall) (tok : Bytes) : Prop :=
  ∀ enc macPart, cutDot tok = some (enc, macPart) →
    Base64url.decodeString macPart = some (s.mac L enc) →
      ∃ c ∈ calls, enc = segment L c.state

variable {L s}

/-- Bytes are cut at their first dot. -/
theorem cutDot_append {a : Bytes} (ha : ∀ c ∈ a, c ≠ 46) (b : Bytes) :
    cutDot (a ++ 46 :: b) = some (a, b) := by
  have hall : ∀ c ∈ a, decide (c ≠ 46) = true := fun c hc => decide_eq_true (ha c hc)
  unfold cutDot
  rw [List.dropWhile_append_of_pos hall, List.takeWhile_append_of_pos hall]
  simp

/-- A signed token is cut where its segments were joined. -/
theorem cutDot_token (st : SignedState) : cutDot (s.token L st) =
    some (segment L st, Base64url.encodeToString (s.mac L (segment L st))) :=
  cutDot_append (Base64url.forall_mem_encodeToString (by decide +kernel) _) _

/-- **What `Verify` says of a token that was signed**: it returns the state until it expires. -/
theorem verify_token (now : Time) (st : SignedState) : s.verify L now (s.token L st) =
    if st.exp < unix now then .error (.failed "state expired") else .ok st := by
  unfold verify
  rw [cutDot_token]
  simp only [Base64url.decodeString_encodeToString, segment, L.unmarshal_marshal]
  rw [if_neg (by simp)]

/-- What `Verify` has checked of a token that it accepts. -/
theorem checked_of_verify {now : Time} {tok : Bytes} {st : SignedState}
    (h : s.verify L now tok = .ok st) :
    ∃ enc macPart payload, cutDot tok = some (enc, macPart) ∧
      Base64url.decodeString macPart = some (s.mac L enc) ∧
      Base64url.decodeString enc = some payload ∧ L.unmarshal payload = some st ∧
      (unix now : ℤ) ≤ st.exp := by
  unfold verify at h
  cases hcut : cutDot tok with
  | none => simp [hcut] at h
  | some parts =>
    obtain ⟨enc, macPart⟩ := parts
    simp only [hcut] at h
    cases hmac : Base64url.decodeString macPart with
    | none => simp [hmac] at h
    | some gotMAC =>
      simp only [hmac] at h
      by_cases hgot : gotMAC = s.mac L enc
      · rw [if_neg (not_not.mpr hgot)] at h
        cases henc : Base64url.decodeString enc with
        | none => simp [henc] at h
        | some payload =>
          simp only [henc] at h
          cases hpayload : L.unmarshal payload with
          | none => simp [hpayload] at h
          | some st' =>
            simp only [hpayload] at h
            by_cases hexp : st'.exp < unix now
            · simp [hexp] at h
            · rw [if_neg hexp, Except.ok.injEq] at h
              subst h
              subst hgot
              exact ⟨enc, macPart, payload, rfl, hmac, henc, hpayload, not_lt.mp hexp⟩
      · simp [hgot] at h

/-- **An accepted token carries a segment that was signed**, and the state that was. -/
theorem signed_of_verify {calls : List SignCall} {now : Time} {tok : Bytes} {st : SignedState}
    (hforged : s.Unforged L calls tok) (h : s.verify L now tok = .ok st) :
    ∃ c ∈ calls, (cutDot tok).map Prod.fst = some (segment L c.state) ∧ st = c.state ∧
      (unix now : ℤ) ≤ c.exp := by
  obtain ⟨enc, macPart, payload, hcut, hmac, henc, hpayload, hexp⟩ := checked_of_verify h
  obtain ⟨c, hc, rfl⟩ := hforged enc macPart hcut hmac
  -- the segment decodes to what was marshalled
  rw [segment, Base64url.decodeString_encodeToString] at henc
  obtain rfl := Option.some.inj henc
  rw [L.unmarshal_marshal] at hpayload
  obtain rfl := Option.some.inj hpayload
  exact ⟨c, hc, by rw [hcut]; rfl, rfl, hexp⟩

/-- **Signed state comes back as it was signed, and no other does.**  `Sign` returns a token that
`Verify` accepts up to its expiry second, with the tenant, the region and the connector it was
signed for, and refuses after it; and a token that `Verify` accepts has a payload segment that
`Sign` has made with this key and that has not expired, and the fields of that call. -/
theorem signed_state_faithful (L : StateLib) (s : StateSigner) :
    (∀ c : SignCall, ∃ tok, s.sign L (.ok ()) c = .ok tok ∧ ∀ later : Time,
      ((unix later : ℤ) ≤ c.exp → ∃ st, s.verify L later tok = .ok st ∧
        st.tenant = c.tenant ∧ st.region = c.region ∧ st.connector = c.connector) ∧
      (c.exp < unix later → ∃ e, s.verify L later tok = .error e)) ∧
    ∀ (calls : List SignCall) (tok : Bytes) (later : Time) (st : SignedState),
      s.Unforged L calls tok → s.verify L later tok = .ok st →
        ∃ c ∈ calls, (cutDot tok).map Prod.fst = some (segment L c.state) ∧
          (st.tenant = c.tenant ∧ st.region = c.region ∧ st.connector = c.connector) ∧
          (unix later : ℤ) ≤ c.exp := by
  refine ⟨fun c => ⟨s.token L c.state, rfl, fun later => ⟨fun hle => ?_, fun hlt => ?_⟩⟩, ?_⟩
  · refine ⟨c.state, ?_, rfl, rfl, rfl⟩
    rw [verify_token]
    exact if_neg (not_lt.mpr hle)
  · refine ⟨.failed "state expired", ?_⟩
    rw [verify_token]
    exact if_pos hlt
  · intro calls tok later st hforged h
    obtain ⟨c, hc, hsegment, rfl, hexp⟩ := signed_of_verify hforged h
    exact ⟨c, hc, hsegment, ⟨rfl, rfl, rfl⟩, hexp⟩

end StateSigner

/-! ### A signed state -/

/-- A character in three bytes. -/
def packChar (c : Char) : Bytes :=
  [UInt8.ofNat (c.toNat / 65536), UInt8.ofNat (c.toNat / 256 % 256), UInt8.ofNat (c.toNat % 256)]

def unpackChars : Bytes → List Char
  | a :: b :: c :: l => Char.ofNat (a.toNat * 65536 + b.toNat * 256 + c.toNat) :: unpackChars l
  | _ => []

theorem unpackChars_flatMap (l : List Char) : unpackChars (l.flatMap packChar) = l := by
  induction l with
  | nil => rfl
  | cons c l ih =>
    have hlt : c.toNat < 1114112 := by
      have hvalid : c.toNat < 55296 ∨ 57343 < c.toNat ∧ c.toNat < 1114112 := c.valid
      omega
    have hchar : c.toNat / 65536 % 2 ^ 8 * 65536 + c.toNat / 256 % 256 % 2 ^ 8 * 256 +
        c.toNat % 256 % 2 ^ 8 = c.toNat := by omega
    rw [List.flatMap_cons, packChar]
    simp only [List.cons_append, List.nil_append, unpackChars, UInt8.toNat_ofNat']
    rw [ih, hchar, Char.ofNat_toNat]

/-- A call of `Sign` a second into the epoch, for a minute less a second. -/
def demoCall : SignCall where
  tenant := "tenant-1"
  region := "us-east"
  connector := "gdocs"
  ttl := minute - second
  now := second
  nonce := [0, 1, 2, 3, 4, 5, 6, 7, 8, 9, 10, 11, 12, 13, 14, 15]

/-- Its payload, in JSON. -/
def demoPayload : Bytes :=
  ("\x7b\"t\":\"tenant-1\",\"r\":\"us-east\",\"c\":\"gdocs\"," ++
    "\"n\":\"AAECAwQFBgcICQoLDA0ODw\",\"e\":60\x7d").toList.map fun c => UInt8.ofNat c.toNat

/-- The key, and the MAC of the payload's segment under it. -/
def demoKey : Bytes := "state-key".toList.map fun c => UInt8.ofNat c.toNat

def demoMac : Bytes :=
  [131, 44, 88, 200, 185, 228, 32, 208, 81, 24, 165, 13, 224, 198, 219, 228,
    221, 5, 247, 8, 201, 210, 107, 186, 2, 97, 197, 240, 10, 220, 243, 176]

/-- A library that writes the payload as JSON does, and other payloads field by field after a zero;
its MAC is that of HMAC-SHA256 on the payload's segment. -/
def demoLib : StateLib where
  marshal st :=
    if st = demoCall.state then demoPayload else 0 :: (spellFields st.fields).flatMap packChar
  unmarshal
    | 0 :: l => readState (readFields false [] (unpackChars l))
    | l => if l = demoPayload then some demoCall.state else none
  unmarshal_marshal st := by
    by_cases hdemo : st = demoCall.state
    · subst hdemo
      rw [if_pos rfl]
      rfl
    · rw [if_neg hdemo]
      show readState (readFields false [] (unpackChars _)) = some st
      rw [unpackChars_flatMap, readFields_spellFields, readState_fields]
  hmac key msg := if key = demoKey ∧ msg = Base64url.encodeToString demoPayload then demoMac else []

def demoSigner : StateSigner := ⟨demoKey, by decide⟩

/-- A token is accepted half a minute later. -/
theorem demo_token_accepted : ∃ tok st, demoSigner.sign demoLib (.ok ()) demoCall = .ok tok ∧
    demoSigner.verify demoLib (30 * second) tok = .ok st ∧
    ∃ c ∈ [demoCall], (cutDot tok).map Prod.fst = some (StateSigner.segment demoLib c.state) ∧
      (st.tenant = c.tenant ∧ st.region = c.region ∧ st.connector = c.connector) ∧
      (unix (30 * second) : ℤ) ≤ c.exp := by
  obtain ⟨hsigned, haccepted⟩ := StateSigner.signed_state_faithful demoLib demoSigner
  obtain ⟨tok, hsign, hlater⟩ := hsigned demoCall
  obtain ⟨st, hverify, -⟩ := (hlater (30 * second)).1 (by decide)
  refine ⟨tok, st, hsign, hverify, haccepted [demoCall] tok (30 * second) st ?_ hverify⟩
  obtain rfl := Except.ok.inj hsign
  intro enc macPart hcut _
  rw [StateSigner.cutDot_token] at hcut
  obtain ⟨rfl, -⟩ := Prod.mk.inj (Option.some.inj hcut)
  exact ⟨demoCall, List.mem_singleton_self _, rfl⟩

/-! ### The signer over strings -/

/-- The bytes of a string. -/
def utf8 (s : String) : Bytes := s.toList.flatMap String.utf8EncodeChar

/-- Bytes of ASCII as a string. -/
def ascii (l : Bytes) : String := String.ofList (l.map fun b => Char.ofNat b.toNat)

/-- Only a dot has the byte of a dot. -/
theorem eq_dot_of_mem {c : Char} (h : 46 ∈ String.utf8EncodeChar c) : c = '.' := by
  have hbyte : ∀ n : ℕ, 46 = UInt8.ofNat n → n % 256 = 46 := by
    intro n hn
    have hnat := congrArg UInt8.toNat hn
    rw [UInt8.toNat_ofNat'] at hnat
    exact hnat.symm
  have hsmall : c.val.toNat = 46 := by
    unfold String.utf8EncodeChar at h
    dsimp only at h
    -- the bytes of a longer encoding are 128 or more
    split_ifs at h
    · have hv := hbyte _ (List.mem_singleton.mp h)
      omega
    · simp only [List.mem_cons, List.not_mem_nil, or_false] at h
      rcases h with h | h <;> (have hv := hbyte _ h; omega)
    · simp only [List.mem_cons, List.not_mem_nil, or_false] at h
      rcases h with h | h | h <;> (have hv := hbyte _ h; omega)
    · simp only [List.mem_cons, List.not_mem_nil, or_false] at h
      rcases h with h | h | h | h <;> (have hv := hbyte _ h; omega)
  exact Char.ext (UInt32.toNat_inj.mp hsmall)

theorem utf8EncodeChar_ofNat {b : UInt8} (hb : b.toNat < 128) :
    String.utf8EncodeChar (Char.ofNat b.toNat) = [b] := by
  have hvalid : b.toNat.isValidChar := Or.inl (by omega)
  have hval : (Char.ofNat b.toNat).val.toNat = b.toNat := by
    rw [Char.ofNat, dif_pos hvalid]
    exact UInt32.toNat_ofNatLT ..
  unfold String.utf8EncodeChar
  dsimp only
  rw [hval, if_pos (by omega), UInt8.ofNat_toNat]

theorem utf8_ascii {l : Bytes} (hl : ∀ b ∈ l, b.toNat < 128) : utf8 (ascii l) = l := by
  unfold utf8 ascii
  rw [String.toList_ofList]
  induction l with
  | nil => rfl
  | cons b l ih =>
    have hb := utf8EncodeChar_ofNat (hl b List.mem_cons_self)
    have hrest := ih fun b' hb' => hl b' (List.mem_cons_of_mem _ hb')
    rw [List.map_cons, List.flatMap_cons, hb, hrest]
    rfl

/-- Base64url is ASCII. -/
theorem utf8_ascii_encodeToString (l : Bytes) :
    utf8 (ascii (Base64url.encodeToString l)) = Base64url.encodeToString l :=
  utf8_ascii (Base64url.forall_mem_encodeToString (by decide +kernel) l)

theorem utf8_append (s t : String) : utf8 (s ++ t) = utf8 s ++ utf8 t := by
  simp [utf8]

/-- **A string is cut where its bytes are.** -/
theorem cutDot_utf8 (s : String) :
    cutDot (utf8 s) = (cutAt '.' s).map fun parts => (utf8 parts.1, utf8 parts.2) := by
  unfold cutAt
  cases hdrop : s.toList.dropWhile (· ≠ '.') with
  | nil =>
    have hnone : (utf8 s).dropWhile (· ≠ 46) = [] := by
      rw [List.dropWhile_eq_nil_iff] at hdrop ⊢
      intro b hb
      obtain ⟨c, hc, hb⟩ := List.mem_flatMap.mp hb
      refine decide_eq_true fun h46 => ?_
      subst h46
      exact of_decide_eq_true (hdrop c hc) (eq_dot_of_mem hb)
    unfold cutDot
    rw [hnone]
    rfl
  | cons c rest =>
    -- what is before the first dot has no byte of a dot
    have hdot : c = '.' := by
      have hhead := List.head?_dropWhile_not (fun c => decide (c ≠ '.')) s.toList
      rw [hdrop] at hhead
      simpa using hhead
    have hsplit : s.toList = s.toList.takeWhile (· ≠ '.') ++ '.' :: rest := by
      have hjoin := List.takeWhile_append_dropWhile (p := fun c => decide (c ≠ '.')) (l := s.toList)
      rw [hdrop, hdot] at hjoin
      exact hjoin.symm
    have hutf8 : utf8 s = utf8 (String.ofList (s.toList.takeWhile (· ≠ '.'))) ++
        46 :: utf8 (String.ofList rest) := by
      unfold utf8
      rw [String.toList_ofList, String.toList_ofList]
      conv_lhs => rw [hsplit]
      rw [List.flatMap_append, List.flatMap_cons]
      rfl
    rw [hutf8]
    refine StateSigner.cutDot_append (fun b hb h46 => ?_) _
    subst h46
    unfold utf8 at hb
    rw [String.toList_ofList] at hb
    obtain ⟨c', hc', hb⟩ := List.mem_flatMap.mp hb
    have hne := List.mem_takeWhile_imp hc'
    exact of_decide_eq_true hne (eq_dot_of_mem hb)

/-- The signer as the connect flow has it: tokens and segments are strings. -/
def StateSigner.toSigner (L : StateLib) (s : StateSigner) : Signer where
  encode st := ascii (StateSigner.segment L st)
  decode enc := (Base64url.decodeString (utf8 enc)).bind L.unmarshal
  decode_encode st := by
    rw [StateSigner.segment, utf8_ascii_encodeToString, Base64url.decodeString_encodeToString]
    exact L.unmarshal_marshal st
  dot_not_mem st := by
    intro hdot
    have hmem : 46 ∈ utf8 (ascii (StateSigner.segment L st)) :=
      List.mem_flatMap.mpr ⟨'.', hdot, by decide⟩
    rw [StateSigner.segment, utf8_ascii_encodeToString] at hmem
    exact Base64url.forall_mem_encodeToString (P := fun b => b ≠ 46) (by decide +kernel) _ 46
      hmem rfl
  mac enc := s.mac L (utf8 enc)
  encodeMac m := ascii (Base64url.encodeToString m)
  decodeMac macPart := Base64url.decodeString (utf8 macPart)
  decodeMac_encodeMac m := by
    rw [utf8_ascii_encodeToString, Base64url.decodeString_encodeToString]

/-- The token over strings has the bytes of the token. -/
theorem utf8_sign_toSigner (L : StateLib) (s : StateSigner) (st : SignedState) :
    utf8 ((s.toSigner L).sign st) = s.token L st := by
  have hsegment : utf8 (ascii (StateSigner.segment L st)) = StateSigner.segment L st :=
    utf8_ascii_encodeToString _
  unfold Signer.sign StateSigner.token
  rw [utf8_append, utf8_append]
  show utf8 (ascii (StateSigner.segment L st)) ++ [46] ++
    utf8 (ascii (Base64url.encodeToString (s.mac L (utf8 (ascii _))))) = _
  rw [utf8_ascii_encodeToString, hsegment, List.append_assoc]
  rfl

/-- **The signer over strings is the one over bytes.** -/
theorem verify_toSigner (L : StateLib) (s : StateSigner) (now : Time) (tok : String) :
    (s.toSigner L).verify now tok = s.verify L now (utf8 tok) := by
  unfold Signer.verify StateSigner.verify
  rw [cutDot_utf8]
  cases cutAt '.' tok with
  | none => rfl
  | some parts =>
    obtain ⟨enc, macPart⟩ := parts
    show (match Base64url.decodeString (utf8 macPart) with
      | none => _
      | some gotMAC => _) = _
    simp only [Option.map_some]
    cases Base64url.decodeString (utf8 macPart) with
    | none => rfl
    | some gotMAC =>
      dsimp only
      by_cases hgot : gotMAC = s.mac L (utf8 enc)
      · have hgot' : ¬ gotMAC ≠ (s.toSigner L).mac enc := not_not.mpr hgot
        rw [if_neg hgot', if_neg (not_not.mpr hgot)]
        show (match (Base64url.decodeString (utf8 enc)).bind L.unmarshal with
          | none => _
          | some st => _) = _
        cases Base64url.decodeString (utf8 enc) with
        | none => rfl
        | some payload => rfl
      · have hgot' : gotMAC ≠ (s.toSigner L).mac enc := hgot
        rw [if_pos hgot', if_pos hgot]

end Hivebook
