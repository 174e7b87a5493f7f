import Depot.Credentials
import Depot.Proofs.Text.Base64
import Depot.Proofs.Text.Octets

/-!
# The header for basic authorization

Behind the scheme, a header holds the octets of the user name, a colon and the password, and nothing
else. Its receiver cuts what it decodes at the first colon (`received?`), and so reads both parts as
they were, if the user name has no colon (`authHeader_by_parts`).
-/

namespace Depot.Credentials

open Text (octets ofOctets? ofOctets?_octets octets_append)
open Text.Base64 (decode encode decode_encode decode_eq_some_iff IsPadded isPadded_encode)

variable {c : Credentials} {username password : String}

/-! ### What the receiver reads -/

/-- The parts of a text in front of its first colon and behind it. -/
def cutAtColon? (text : String) : Option (String × String) :=
  match text.toList.dropWhile (· ≠ ':') with
  | _ :: behind => some (String.ofList (text.toList.takeWhile (· ≠ ':')), String.ofList behind)
  | [] => none

/-- The user name and the password that the receiver reads from what stands behind the scheme. -/
def received? (encoded : List Char) : Option (String × String) := do
  let bs ← decode encoded
  let text ← ofOctets? bs
  cutAtColon? text

lemma cutAtColon?_append (h : ':' ∉ username.toList) :
    cutAtColon? (username ++ ":" ++ password) = some (username, password) := by
  have hcolon : (username ++ ":" ++ password).toList =
      username.toList ++ ':' :: password.toList := by simp
  have hfront : ∀ c ∈ username.toList, decide (c ≠ ':') = true := by
    intro c hc
    refine decide_eq_true ?_
    rintro rfl
    exact h hc
  rw [cutAtColon?, hcolon, List.takeWhile_append_of_pos hfront,
    List.dropWhile_append_of_pos hfront]
  simp

/-! ### What the header holds -/

lemma authHeader_eq (h : c.username = some username) : c.authHeader =
    some ("Basic " ++ String.ofList (encode (octets (userInfo username c.password)))) := by
  rw [authHeader, h]
  rfl

lemma octets_userInfo (username : String) (password : Option String) :
    octets (userInfo username password) =
      octets username ++ octets ":" ++ octets (password.getD "") := by
  rw [userInfo, octets_append, octets_append]

lemma received?_encode (h : ':' ∉ username.toList) (password : Option String) :
    received? (encode (octets (userInfo username password))) =
      some (username, password.getD "") := by
  simp only [received?, decode_encode, ofOctets?_octets, Option.bind_eq_bind, Option.bind_some]
  exact cutAtColon?_append h

/-- The header is missing exactly if the user name is. Otherwise it is the scheme with the one
padded text in base 64 behind it that is decoded to the octets of the user name, of a colon and of
the password, or of the empty text if there is none. From that text, a user name without colons and
the password are received as they were; hence with such user names two headers are equal exactly if
the user names are, and the passwords as well, but for an empty one that may be missing. -/
theorem authHeader_by_parts (c : Credentials) :
    (c.authHeader = none ↔ c.username = none) ∧
    (∀ username, c.username = some username → ∃ encoded,
      c.authHeader = some ("Basic " ++ String.ofList encoded) ∧ IsPadded encoded ∧
      (∀ text, decode text =
          some (octets username ++ octets ":" ++ octets (c.password.getD "")) ↔ text = encoded) ∧
      (':' ∉ username.toList → received? encoded = some (username, c.password.getD ""))) ∧
    ∀ (d : Credentials) (u v : String), c.username = some u → d.username = some v →
      ':' ∉ u.toList → ':' ∉ v.toList →
      (c.authHeader = d.authHeader ↔ u = v ∧ c.password.getD "" = d.password.getD "") := by
  refine ⟨?_, fun username h => ?_, fun d u v hu hv hcolon hcolon' => ⟨fun h => ?_, ?_⟩⟩
  · simp [authHeader]
  · refine ⟨_, authHeader_eq h, isPadded_encode _, fun text => ?_, fun hcolon => ?_⟩
    · rw [decode_eq_some_iff, octets_userInfo]
    · exact received?_encode hcolon c.password
  · rw [authHeader_eq hu, authHeader_eq hv, Option.some_inj, String.append_right_inj,
      String.ofList_inj] at h
    have hreceived := received?_encode hcolon c.password
    rw [h, received?_encode hcolon' d.password] at hreceived
    obtain ⟨hname, hpassword⟩ := Prod.mk.inj (Option.some.inj hreceived)
    exact ⟨hname.symm, hpassword.symm⟩
  · rintro ⟨rfl, hpassword⟩
    rw [authHeader_eq hu, authHeader_eq hv, userInfo, userInfo, hpassword]

/-- A user name with a letter of two octets, once with a password that has a colon and once without
a password. -/
theorem authHeader_by_parts_umlaut :
    let c : Credentials := ⟨some "jörg", some "a:b"⟩
    let d : Credentials := ⟨some "jörg", none⟩
    ':' ∉ "jörg".toList ∧ c.authHeader = some "Basic asO2cmc6YTpi" ∧
      received? "asO2cmc6YTpi".toList = some ("jörg", "a:b") ∧ c.authHeader ≠ d.authHeader := by
  intro c d
  have hcolon : ':' ∉ "jörg".toList := by decide
  have hheader : c.authHeader = some "Basic asO2cmc6YTpi" := by decide
  obtain ⟨-, hparts, hiff⟩ := authHeader_by_parts c
  obtain ⟨encoded, hencoded, -, -, hreceived⟩ := hparts "jörg" rfl
  refine ⟨hcolon, hheader, ?_, fun heq => ?_⟩
  · have htext : "Basic " ++ String.ofList encoded = "Basic " ++ "asO2cmc6YTpi" :=
      Option.some.inj (hencoded.symm.trans hheader)
    rw [← (String.append_right_inj _).1 htext, String.toList_ofList]
    exact hreceived hcolon
  · obtain ⟨-, hpassword⟩ := (hiff d "jörg" "jörg" rfl rfl hcolon hcolon).1 heq
    exact absurd hpassword (by decide)

/-- With colons in user names, different credentials have one header. -/
example : authHeader ⟨some "a", some "b:c"⟩ = authHeader ⟨some "a:b", some "c"⟩ := by
  decide

end Depot.Credentials
