import Tremor.Base64.Preprocessor

namespace tremor_runtime.http

/-- The authorization strategies of the HTTP connectors (`auth::Auth`). -/
inductive Auth where
  | Basic (username password : String)
  | Bearer (token : String)
  | ElasticsearchApiKey (id api_key : String)
  | Gcp
  | None
  deriving DecidableEq, Repr

/-- `Auth::as_header_value`. For `Gcp` the header comes from `gouth::Token`, a live lookup
    outside this repository: `gcp_header` is what it returns, a header value or an error. -/
def Auth.as_header_value {ε : Type} (gcp_header : Except ε String) :
    Auth → Except ε (Option String)
  | .Gcp => do
    let t ← gcp_header
    pure (some t)
  | .Basic username password =>
    let encoded := base64.encode (username ++ ":" ++ password).as_bytes
    pure (some ("Basic " ++ encoded))
  | .Bearer token => pure (some ("Bearer " ++ token))
  | .ElasticsearchApiKey id api_key =>
    let header_value := "ApiKey "
    let header_value := base64.encode_config_buf id.as_bytes header_value
    let header_value := base64.encode_config_buf ":".as_bytes header_value
    let header_value := base64.encode_config_buf api_key.as_bytes header_value
    pure (some header_value)
  | .None => pure none

/-- The basic header is `"Basic "` and a base64 text that the repository's base64
    preprocessor decodes to exactly the bytes of `username:password`, whatever the two strings
    hold. -/
theorem basic_header_decodes {ε : Type} (gcp_header : Except ε String)
    (username password : String) :
    ∃ c, (Auth.Basic username password).as_header_value gcp_header = .ok (some ("Basic " ++ c)) ∧
      preprocessor.Base64.process c.as_bytes = .ok [(username ++ ":" ++ password).as_bytes] :=
  ⟨_, rfl, by rw [base64.as_bytes_encode, preprocessor.Base64.process_encode]⟩

/-- Once the key is nonempty, the `ApiKey` header is no base64 encoding at all: the separately
    padded `":"` leaves padding inside it, so it differs from the single-pass encoding of
    `id:api_key`, and of any other bytes. -/
theorem api_key_header_not_single_pass {ε : Type} (gcp_header : Except ε String)
    (id api_key : String) (hkey : api_key ≠ "") :
    ∃ h, (Auth.ElasticsearchApiKey id api_key).as_header_value gcp_header = .ok (some h) ∧
      ∀ bytes, h ≠ "ApiKey " ++ base64.encode bytes := by
  refine ⟨_, rfl, fun bytes heq => ?_⟩
  have hdata := congrArg String.data heq
  simp only [base64.encode_config_buf, String.data_append, List.append_assoc,
    List.append_cancel_left_eq] at hdata
  have hsymbols : base64.encode_bytes id.as_bytes ++
      (base64.encode_bytes ":".as_bytes ++ base64.encode_bytes api_key.as_bytes) =
        base64.encode_bytes bytes :=
    base64.encode_bytes_of_chars
      (by
        simp only [List.mem_append]
        rintro b (hb | hb | hb) <;> exact base64.encode_bytes_ascii _ b hb)
      (by simpa [base64.encode] using hdata)
  -- the padding of the encoded `":"` stands before the key's symbols
  have hpad := base64.encode_bytes_PAD_last bytes ((base64.encode_bytes id.as_bytes).length + 2)
    (by rw [← hsymbols, List.getElem?_append_right (by omega)]; simp; rfl)
  have hkey_len := base64.encode_bytes_length_ge (String.as_bytes_ne_nil hkey)
  have hcolon : (base64.encode_bytes ":".as_bytes).length = 4 := rfl
  rw [← hsymbols] at hpad
  simp only [List.length_append] at hpad
  omega

/-- For `id = "abc"` and `api_key = "xyz"` the header is `ApiKey YWJjOg==eHl6`. -/
theorem api_key_header_not_single_pass_abc :
    "xyz" ≠ "" ∧ ∃ h, (Auth.ElasticsearchApiKey "abc" "xyz").as_header_value
      (.error "unavailable" : Except String String) = .ok (some h) ∧
      ∀ bytes, h ≠ "ApiKey " ++ base64.encode bytes :=
  ⟨by decide, api_key_header_not_single_pass _ "abc" "xyz" (by decide)⟩

example : (Auth.ElasticsearchApiKey "abc" "xyz").as_header_value
    (.error "unavailable" : Except String String) = .ok (some "ApiKey YWJjOg==eHl6") := rfl

end tremor_runtime.http
