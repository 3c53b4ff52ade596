import Hivebook.Server.Handlers

/-!
# The signed state of a connect flow

An OAuth redirect leaves the service and comes back without a session.  What ties the way back
to a tenant is the state: a payload with the tenant, its region and the connector, and a MAC
over it.  JSON, base64 and HMAC-SHA256 are outside the program; `Signer` carries what the code
relies on.  That nobody else can compute the MAC is not a fact about these functions, and is an
assumption about the redirects that come back.

## Main definitions

* `SignedState` — `oauth.State`.
* `Signer`, `Signer.sign`, `Signer.verify` — the signer, and the two operations.
* `Signer.Vouched` — the token carries the MAC of a payload.

## Main results

* `vouched_of_verify` — **a state that verifies carries the MAC of its payload.**
* `verify_sign` — a state that was signed verifies until it expires.
-/

namespace Hivebook

/-- `strings.Cut(s, sep)`, for a separator of one character. -/
def cutAt (sep : Char) (s : String) : Option (String × String) :=
  match s.toList.dropWhile (· ≠ sep) with
  | [] => none
  | _ :: rest => some (String.ofList (s.toList.takeWhile (· ≠ sep)), String.ofList rest)

/-- `oauth.State`. -/
structure SignedState extends OAuthState where
  nonce : String
  /-- Unix seconds. -/
  exp : ℤ
  deriving DecidableEq, Repr

/-- `Time.Unix()`. -/
def unix (t : Time) : ℕ := t / second

/-- `stateTTL`. -/
def stateTTL : Time := 10 * minute

/-- `oauth.Signer` with its key. -/
structure Signer where
  /-- `b64.EncodeToString(json.Marshal(st))`. -/
  encode : SignedState → String
  /-- `json.Unmarshal(b64.DecodeString(enc))`. -/
  decode : String → Option SignedState
  decode_encode : ∀ st, decode (encode st) = some st
  /-- The base64url alphabet has no dot. -/
  dot_not_mem : ∀ st, '.' ∉ (encode st).toList
  /-- HMAC-SHA256 under the key. -/
  mac : String → Bytes
  /-- `b64.EncodeToString`, and back. -/
  encodeMac : Bytes → String
  decodeMac : String → Option Bytes
  decodeMac_encodeMac : ∀ m, decodeMac (encodeMac m) = some m

namespace Signer

variable (sg : Signer)

/-- `Signer.Sign`, with the nonce it has drawn. -/
def sign (st : SignedState) : String := sg.encode st ++ "." ++ sg.encodeMac (sg.mac (sg.encode st))

/-- `Signer.Verify`. -/
def verify (now : Time) (token : String) : Except Err SignedState :=
  match cutAt '.' token with
  | none => .error (.failed "malformed state")
  | some (enc, macPart) =>
      match sg.decodeMac macPart with
      | none => .error (.failed "malformed state mac")
      | some gotMAC =>
          if gotMAC ≠ sg.mac enc then .error (.failed "bad state signature")
          else
            match sg.decode enc with
            | none => .error (.failed "malformed state payload")
            | some st =>
                if st.exp < unix now then .error (.failed "state expired") else .ok st

/-- The token carries the MAC of a payload. -/
def Vouched (token enc : String) : Prop :=
  ∃ macPart, cutAt '.' token = some (enc, macPart) ∧ sg.decodeMac macPart = some (sg.mac enc)

variable {sg} {now : Time} {token : String} {st : SignedState}

/-- **A state that verifies carries the MAC of its payload.** -/
theorem vouched_of_verify (h : sg.verify now token = .ok st) :
    ∃ enc, sg.Vouched token enc ∧ sg.decode enc = some st := by
  unfold verify at h
  cases hcut : cutAt '.' token with
  | none => simp [hcut] at h
  | some parts =>
    obtain ⟨enc, macPart⟩ := parts
    simp only [hcut] at h
    cases hmac : sg.decodeMac macPart with
    | none => simp [hmac] at h
    | some gotMAC =>
      simp only [hmac] at h
      by_cases hgot : gotMAC = sg.mac enc
      · rw [if_neg (not_not.mpr hgot)] at h
        cases hdecode : sg.decode enc with
        | none => simp [hdecode] at h
        | some st' =>
          simp only [hdecode] at h
          by_cases hexp : st'.exp < unix now
          · simp [hexp] at h
          · rw [if_neg hexp, Except.ok.injEq] at h
            exact ⟨enc, ⟨macPart, hcut, hmac.trans (congrArg some hgot)⟩, hdecode.trans (by rw [h])⟩
      · simp [hgot] at h

/-- A string is cut at its first dot. -/
theorem cutAt_dot {a : String} (ha : '.' ∉ a.toList) (b : String) :
    cutAt '.' (a ++ "." ++ b) = some (a, b) := by
  have hall : ∀ c ∈ a.toList, decide (c ≠ '.') = true := by
    intro c hc
    exact decide_eq_true fun h => ha (h ▸ hc)
  have hlist : (a ++ "." ++ b).toList = a.toList ++ '.' :: b.toList := by simp
  unfold cutAt
  rw [hlist, List.dropWhile_append_of_pos hall, List.takeWhile_append_of_pos hall]
  simp

/-- **A state that was signed verifies until it expires.** -/
theorem verify_sign (h : (unix now : ℤ) ≤ st.exp) : sg.verify now (sg.sign st) = .ok st := by
  have hcut : cutAt '.' (sg.sign st) = some (sg.encode st, sg.encodeMac (sg.mac (sg.encode st))) :=
    cutAt_dot (sg.dot_not_mem st) _
  unfold verify
  simp only [hcut, sg.decodeMac_encodeMac, sg.decode_encode]
  rw [if_neg (by simp), if_neg (not_lt.mpr h)]

end Signer

/-! ### A signer -/

/-- A character of a field. -/
def escape (c : Char) : List Char :=
  if c = '.' then ['~', 'd'] else if c = ',' ∨ c = '~' then ['~', c] else [c]

/-- Fields, each closed by a comma. -/
def spellFields (fs : List (List Char)) : List Char :=
  fs.flatMap fun f => f.flatMap escape ++ [',']

/-- The fields spelled, after `acc` was read of the first, and an escape or not. -/
def readFields (escaped : Bool) (acc : List Char) : List Char → List (List Char)
  | [] => []
  | c :: cs =>
      if escaped then readFields false (acc ++ [if c = 'd' then '.' else c]) cs
      else if c = '~' then readFields true acc cs
      else if c = ',' then acc :: readFields false [] cs
      else readFields false (acc ++ [c]) cs

theorem readFields_escape (acc : List Char) (c : Char) (cs : List Char) :
    readFields false acc (escape c ++ cs) = readFields false (acc ++ [c]) cs := by
  unfold escape
  by_cases hdot : c = '.'
  · subst hdot
    simp [readFields]
  · rw [if_neg hdot]
    by_cases hmark : c = ',' ∨ c = '~'
    · have hd : c ≠ 'd' := by rcases hmark with rfl | rfl <;> decide
      rw [if_pos hmark]
      simp [readFields, hd]
    · obtain ⟨hcomma, htilde⟩ := not_or.mp hmark
      rw [if_neg hmark]
      simp [readFields, hcomma, htilde]

theorem readFields_field (acc f cs : List Char) :
    readFields false acc (f.flatMap escape ++ ',' :: cs) =
      (acc ++ f) :: readFields false [] cs := by
  induction f generalizing acc with
  | nil => simp [readFields]
  | cons c f ih =>
    rw [List.flatMap_cons, List.append_assoc, readFields_escape, ih, List.append_assoc,
      List.singleton_append]

theorem readFields_spellFields (fs : List (List Char)) :
    readFields false [] (spellFields fs) = fs := by
  induction fs with
  | nil => rfl
  | cons f fs ih =>
    have hcons : spellFields (f :: fs) = f.flatMap escape ++ ',' :: spellFields fs := by
      simp [spellFields]
    rw [hcons, readFields_field, ih, List.nil_append]

theorem dot_not_mem_spellFields (fs : List (List Char)) : '.' ∉ spellFields fs := by
  intro hdot
  obtain ⟨f, -, hf⟩ := List.mem_flatMap.mp hdot
  rcases List.mem_append.mp hf with hf | hf
  · obtain ⟨c, -, hc⟩ := List.mem_flatMap.mp hf
    unfold escape at hc
    split_ifs at hc with hd hmark
    · simp at hc
    · rcases hmark with rfl | rfl <;> simp at hc
    · exact hd (List.mem_singleton.mp hc).symm
  · simp at hf

/-- A number in unary. -/
def unary (n : ℕ) : List Char := List.replicate n '1'

/-- The fields of a payload; the expiry in minutes and seconds, after its sign. -/
def SignedState.fields (st : SignedState) : List (List Char) :=
  [st.tenant.toList, st.region.toList, st.connector.toList, st.nonce.toList,
    unary (if st.exp < 0 then 1 else 0), unary (st.exp.natAbs / 60), unary (st.exp.natAbs % 60)]

/-- A number with a sign. -/
def readExp (minus : List Char) (n : ℕ) : ℤ := if minus.isEmpty then n else -n

theorem readExp_natAbs (e : ℤ) : readExp (unary (if e < 0 then 1 else 0)) e.natAbs = e := by
  by_cases hneg : e < 0
  · rw [if_pos hneg]
    show -(e.natAbs : ℤ) = e
    omega
  · rw [if_neg hneg]
    show (e.natAbs : ℤ) = e
    omega

/-- The payload with some fields. -/
def readState : List (List Char) → Option SignedState
  | [tenant, region, connector, nonce, minus, minutes, seconds] =>
      some { tenant := String.ofList tenant, region := String.ofList region
             connector := String.ofList connector, nonce := String.ofList nonce
             exp := readExp minus (60 * minutes.length + seconds.length) }
  | _ => none

theorem readState_fields (st : SignedState) : readState st.fields = some st := by
  have hexp : 60 * (unary (st.exp.natAbs / 60)).length + (unary (st.exp.natAbs % 60)).length =
      st.exp.natAbs := by
    simp [unary, Nat.div_add_mod]
  simp only [readState, SignedState.fields, String.ofList_toList, hexp, readExp_natAbs]

/-- A signer that writes the fields out, with a checksum for a MAC. -/
def sampleSigner : Signer where
  encode st := String.ofList (spellFields st.fields)
  decode enc := readState (readFields false [] enc.toList)
  decode_encode st := by rw [String.toList_ofList, readFields_spellFields, readState_fields]
  dot_not_mem st := by
    rw [String.toList_ofList]
    exact dot_not_mem_spellFields st.fields
  mac enc := [UInt8.ofNat (enc.toList.length % 8)]
  encodeMac m := String.ofList (spellFields (m.map fun b => unary b.toNat))
  decodeMac s := some ((readFields false [] s.toList).map fun f => UInt8.ofNat f.length)
  decodeMac_encodeMac m := by
    rw [String.toList_ofList, readFields_spellFields, List.map_map]
    congr 1
    conv_rhs => rw [← List.map_id m]
    exact List.map_congr_left fun c _ => by simp [unary]

end Hivebook
