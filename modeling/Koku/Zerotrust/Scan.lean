import Koku.Upstream.Setting
import Koku.Zerotrust.Token

/-! # Values of a sign-in

`zerotrust.rs` looks for a value in the query of a URL (`queryValue`) and for a token in a cookie
header (`extractJwtFromCookie`). Both go through the parts and end at the first one that they cannot
read (`?`), whatever stands behind it (`sign_in_values_found_iff`). -/

namespace Koku.Zerotrust

open Rust.Str Rust.Utf8 List

/-! ### The two scans -/

/-- A loop over parts that ends with nothing at a part that is not read. -/
def scan {α β : Type} (read : α → Option β) (accept : β → Option Text) : List α → Option Text
  | [] => none
  | part :: rest => (read part).bind fun value => (accept value).or (scan read accept rest)

def decodeBytes : Bytes → Bytes
  | 0x25 :: hi :: lo :: rest =>
    match Upstream.hexByte hi lo with
    | some b => b :: decodeBytes rest
    | none => 0x25 :: decodeBytes (hi :: lo :: rest)
  | 0x2b :: rest => 0x20 :: decodeBytes rest
  | b :: rest => b :: decodeBytes rest
  | [] => []

/-- `percent_decode`. -/
def percentDecode (raw : Text) : Text := fromUtf8Lossy (decodeBytes (asBytes raw))

def valueOf (key : Text) (pair : Text × Text) : Option Text :=
  if pair.1 = key then some (percentDecode pair.2) else none

/-- `query_value`. -/
def queryValue (url key : Text) : Option Text :=
  (splitOnce ['?'] url).bind fun (_, query) => scan (splitOnce ['=']) (valueOf key)
    (split '&' query)

/-- The value of the cookie. -/
def authorization (part : Text) : Option Text :=
  (stripPrefix "CF_Authorization=".toList (trim part)).or
    (stripPrefix "cf_authorization=".toList (trim part))

def jwt (lib : Libs) (value : Text) : Option Text :=
  if looksLikeJwt lib value then some value else none

/-- `extract_jwt_from_cookie`. -/
def extractJwtFromCookie (lib : Libs) (header : Text) : Option Text :=
  scan authorization (jwt lib) (split ';' header)

/-! ### What they look for -/

section Scan

variable {α β : Type} {read : α → Option β} {accept : β → Option Text} {l : List α}

/-- The first part that is read and accepted, wherever it stands. -/
def firstFound (read : α → Option β) (accept : β → Option Text) (l : List α) : Option Text :=
  l.findSome? fun part => (read part).bind accept

/-- No part that is not read stands in front of the first that is accepted. -/
def Unblocked (read : α → Option β) (accept : β → Option Text) (l : List α) : Prop :=
  ∀ before part after, l = before ++ part :: after → read part = none →
    firstFound read accept before = none → firstFound read accept after = none

theorem scan_eq_iff : scan read accept l = firstFound read accept l ↔ Unblocked read accept l := by
  induction l with
  | nil => exact iff_of_true rfl fun _ _ _ h => by simp at h
  | cons part l ih =>
    cases hread : read part with
    | none =>
      have hfound : firstFound read accept (part :: l) = firstFound read accept l := by
        simp [firstFound, hread]
      rw [scan, hread, Option.bind_none, hfound, eq_comm]
      constructor
      · rintro hnone (_ | ⟨first, before⟩) part' after heq - -
        · rwa [← (cons.inj heq).2]
        · rw [firstFound, findSome?_eq_none_iff] at hnone ⊢
          exact fun p hp => hnone p ((cons.inj heq).2 ▸ by simp [hp])
      · exact fun h => h [] part l rfl hread rfl
    | some value =>
      rw [scan, hread, Option.bind_some]
      cases haccept : accept value with
      | some found =>
        have hfound : ∀ m, firstFound read accept (part :: m) = some found := by
          simp [firstFound, hread, haccept]
        rw [hfound, Option.some_or]
        refine iff_of_true rfl ?_
        rintro (_ | ⟨first, before⟩) part' after heq hnone hbefore
        · rw [← (cons.inj heq).1, hread] at hnone
          cases hnone
        · rw [← (cons.inj heq).1, hfound] at hbefore
          cases hbefore
      | none =>
        have hfound : ∀ m, firstFound read accept (part :: m) = firstFound read accept m := by
          simp [firstFound, hread, haccept]
        rw [hfound, Option.none_or, ih]
        constructor
        · rintro h (_ | ⟨first, before⟩) part' after heq hnone hbefore
          · rw [← (cons.inj heq).1, hread] at hnone
            cases hnone
          · rw [← (cons.inj heq).1, hfound] at hbefore
            exact h before part' after (cons.inj heq).2 hnone hbefore
        · intro h before part' after heq hnone hbefore
          exact h (part :: before) part' after (by rw [heq, cons_append]) hnone
            (by rw [hfound, hbefore])

end Scan

/-- **A value is found wherever it stands exactly if no part in front of it ends the loop**: in a
query one without an equals sign, in a header another cookie. -/
theorem sign_in_values_found_iff (lib : Libs) (url key header : Text) :
    (queryValue url key = (splitOnce ['?'] url).bind (fun p => firstFound (splitOnce ['='])
      (valueOf key) (split '&' p.2)) ↔ ∀ p ∈ splitOnce ['?'] url, Unblocked (splitOnce ['='])
        (valueOf key) (split '&' p.2)) ∧
    (extractJwtFromCookie lib header = firstFound authorization (jwt lib) (split ';' header) ↔
      Unblocked authorization (jwt lib) (split ';' header)) := by
  refine ⟨?_, scan_eq_iff⟩
  unfold queryValue
  cases splitOnce ['?'] url with
  | none => simp
  | some p => simpa using scan_eq_iff

/-- A part without an equals sign in front of the code. -/
example : queryValue "x?flag&code=1".toList "code".toList = none ∧
    firstFound (splitOnce ['=']) (valueOf "code".toList) (split '&' "flag&code=1".toList) =
      some "1".toList := by
  decide

end Koku.Zerotrust
