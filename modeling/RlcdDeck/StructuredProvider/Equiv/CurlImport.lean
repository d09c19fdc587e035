import Mathlib.Data.List.Forall2
import Mathlib.Data.Option.Basic
import RlcdDeck.StructuredProvider.CurlImport

/-!
# A credential stays out of the request

Two pasted commands that differ in the credentials of their header arguments alone give one request
(`importCurl_credentials`): the loop over the options carries `Arguments.Alike` from token to token,
and the loop over the headers reads of a header its name and its scheme only
(`importHeader_alike`).
-/

namespace RlcdDeck.StructuredProvider

open ConfigModel (Network)
open Json (Bytes bytes)

/-! ### The credential of a header -/

/-- The name of a header argument. -/
def headerName (encoded : Bytes) : Bytes := canonicalHeaderKey (Utf8.trimSpace (cut 0x3a encoded).1)

/-- The value of a header argument, with its scheme. -/
def headerValue (encoded : Bytes) : Bytes := Utf8.trimSpace ((cut 0x3a encoded).2.getD [])

def allowedSchemes : List Bytes := ["Bearer ", "Basic ", "Token "].map bytes

/-- The allowed scheme before a credential, empty if there is none. -/
def schemeOf (value : Bytes) : Bytes :=
  (allowedSchemes.find? fun scheme =>
    scheme.isPrefixOf value && scheme.length < value.length).getD []

/-- The scheme of a header argument. -/
def headerScheme (encoded : Bytes) : Bytes :=
  if toLower (headerName encoded) = bytes "authorization" then schemeOf (headerValue encoded)
  else []

/-- The value is compared with a media type and left out. -/
def isMediaHeader (encoded : Bytes) : Bool :=
  toLower (headerName encoded) == bytes "accept" ||
    toLower (headerName encoded) == bytes "content-type"

/-- The credential of a header argument. -/
def credential (encoded : Bytes) : Bytes :=
  (headerValue encoded).drop (headerScheme encoded).length

/-- Two header arguments that are equal up to the credential. -/
inductive HeaderAlike : Bytes → Bytes → Prop where
  | same (encoded : Bytes) : HeaderAlike encoded encoded
  | credential {encoded encoded' : Bytes} (name : (cut 0x3a encoded).1 = (cut 0x3a encoded').1)
      (scheme : headerScheme encoded = headerScheme encoded')
      (media : isMediaHeader encoded = false) : HeaderAlike encoded encoded'

/-- Two token lists, read as options with their values, that are equal up to the credentials of
header arguments. -/
inductive TokensAlike : List Bytes → List Bytes → Prop where
  | nil : TokensAlike [] []
  | header {option value value' : Bytes} {tokens tokens' : List Bytes}
      (ho : isHeaderOption option = true) (hv : HeaderAlike value value')
      (rest : TokensAlike tokens tokens') :
      TokensAlike (option :: value :: tokens) (option :: value' :: tokens')
  | inlineHeader {option value value' : Bytes} {tokens tokens' : List Bytes}
      (ho : isHeaderOption option = true) (hv : HeaderAlike value value')
      (rest : TokensAlike tokens tokens') :
      TokensAlike ((option ++ 0x3d :: value) :: tokens) ((option ++ 0x3d :: value') :: tokens')
  | valued {option value : Bytes} {tokens tokens' : List Bytes} (ho : takesValue option = true)
      (rest : TokensAlike tokens tokens') :
      TokensAlike (option :: value :: tokens) (option :: value :: tokens')
  | token {token : Bytes} {tokens tokens' : List Bytes} (ht : takesValue token = false)
      (rest : TokensAlike tokens tokens') : TokensAlike (token :: tokens) (token :: tokens')

/-! ### The options -/

/-- What the loop over the options has collected from two lists of tokens. -/
structure Arguments.Alike (arguments arguments' : Arguments) : Prop where
  method : arguments.method = arguments'.method
  url : arguments.url = arguments'.url
  data : arguments.data = arguments'.data
  headers : List.Forall₂ HeaderAlike arguments.encodedHeaders arguments'.encodedHeaders

theorem cut_append {separator : UInt8} {s after : Bytes} (h : separator ∉ s) :
    cut separator (s ++ separator :: after) = (s, some after) := by
  have hs : ∀ c ∈ s, (c != separator) = true := fun c hc =>
    bne_iff_ne.mpr fun heq => h (heq ▸ hc)
  unfold cut
  rw [List.dropWhile_append_of_pos hs, List.takeWhile_append_of_pos hs]
  simp

theorem cut_of_notMem {separator : UInt8} {s : Bytes} (h : separator ∉ s) :
    cut separator s = (s, none) := by
  have hs : ∀ c ∈ s, (c != separator) = true := fun c hc =>
    bne_iff_ne.mpr fun heq => h (heq ▸ hc)
  unfold cut
  rw [List.dropWhile_eq_nil_iff.mpr hs]

theorem cut_eq_none {separator : UInt8} {s : Bytes} (h : (cut separator s).2 = none) :
    (cut separator s).1 = s := by
  unfold cut at h ⊢
  split at h
  · rfl
  · cases h

theorem option_facts {option : Bytes} (h : takesValue option = true) :
    0x3d ∉ option ∧ isSilentOption option = false := by
  have hmem : option ∈ ["-X", "--request", "-H", "--header", "-d", "--data", "--data-raw",
      "--data-binary", "--url"].map bytes := by
    simp only [takesValue, isMethodOption, isHeaderOption, isDataOption, isUrlOption,
      Bool.or_eq_true, List.contains_iff_mem, beq_iff_eq, List.map_cons, List.map_nil,
      List.mem_cons, List.not_mem_nil, or_false] at h ⊢
    tauto
  have hall : ∀ option ∈ ["-X", "--request", "-H", "--header", "-d", "--data", "--data-raw",
      "--data-binary", "--url"].map bytes, 0x3d ∉ option ∧ isSilentOption option = false := by
    decide +kernel
  exact hall option hmem

theorem takesValue_of_isHeaderOption {option : Bytes} (h : isHeaderOption option = true) :
    takesValue option = true := by
  simp [takesValue, h]

theorem readOptions_valued (arguments : Arguments) {option : Bytes} (value : Bytes)
    (tokens : List Bytes) (h : takesValue option = true) :
    readOptions arguments (option :: value :: tokens) =
      (arguments.set option value).bind fun arguments => readOptions arguments tokens := by
  obtain ⟨hequals, hsilent⟩ := option_facts h
  rw [readOptions_def]
  dsimp only
  rw [cut_of_notMem hequals]
  simp only [hsilent, h, if_true, Bool.false_eq_true, if_false]

theorem readOptions_inline (arguments : Arguments) {option : Bytes} (value : Bytes)
    (tokens : List Bytes) (h : takesValue option = true) :
    readOptions arguments ((option ++ 0x3d :: value) :: tokens) =
      if value.isEmpty then none
      else (arguments.set option value).bind fun arguments => readOptions arguments tokens := by
  obtain ⟨hequals, hsilent⟩ := option_facts h
  rw [readOptions_def]
  dsimp only
  rw [cut_append hequals]
  simp only [hsilent, h, if_true, Bool.false_eq_true, if_false]

namespace Arguments.Alike

variable {arguments arguments' next next' : Arguments} {option : Bytes}

theorem set_header (h : arguments.Alike arguments') {value value' : Bytes}
    (ho : isHeaderOption option = true) (hv : HeaderAlike value value')
    (hset : arguments.set option value = some next)
    (hset' : arguments'.set option value' = some next') : next.Alike next' := by
  have hmethod : isMethodOption option = false := by
    have hmem : option = bytes "-H" ∨ option = bytes "--header" := by
      simpa [isHeaderOption] using ho
    rcases hmem with rfl | rfl
    · decide
    · decide
  simp only [set, hmethod, ho, if_true, Bool.false_eq_true, if_false, Option.some.injEq]
    at hset hset'
  subst hset hset'
  exact { h with headers := List.rel_append h.headers (.cons hv .nil) }

theorem set (h : arguments.Alike arguments') {value : Bytes}
    (hset : arguments.set option value = some next)
    (hset' : arguments'.set option value = some next') : next.Alike next' := by
  obtain ⟨method, url, data, headers⟩ := arguments
  obtain ⟨method', url', data', headers'⟩ := arguments'
  obtain ⟨rfl, rfl, rfl, hheaders⟩ := h
  dsimp only at hheaders
  unfold Arguments.set at hset hset'
  dsimp only at hset hset'
  split_ifs at hset hset' with hmethod hheader hdata hat hurl
  · obtain rfl := Option.some.inj hset
    obtain rfl := Option.some.inj hset'
    exact ⟨rfl, rfl, rfl, hheaders⟩
  · obtain rfl := Option.some.inj hset
    obtain rfl := Option.some.inj hset'
    exact ⟨rfl, rfl, rfl, List.rel_append hheaders (.cons (.same value) .nil)⟩
  · obtain rfl := Option.some.inj hset
    obtain rfl := Option.some.inj hset'
    exact ⟨rfl, rfl, rfl, hheaders⟩
  · obtain rfl := Option.some.inj hset
    obtain rfl := Option.some.inj hset'
    exact ⟨rfl, rfl, rfl, hheaders⟩

end Arguments.Alike

/-- **The loop over the options** keeps the two sides alike. -/
theorem readOptions_alike {tokens tokens' : List Bytes} (h : TokensAlike tokens tokens') :
    ∀ {arguments arguments' last last' : Arguments}, arguments.Alike arguments' →
      readOptions arguments tokens = some last → readOptions arguments' tokens' = some last' →
      last.Alike last' := by
  induction h with
  | nil =>
    intro arguments arguments' last last' halike hread hread'
    obtain rfl := Option.some.inj hread
    obtain rfl := Option.some.inj hread'
    exact halike
  | header ho hv _ ih =>
    intro arguments arguments' last last' halike hread hread'
    rw [readOptions_valued _ _ _ (takesValue_of_isHeaderOption ho)] at hread hread'
    obtain ⟨next, hset, hrest⟩ := Option.bind_eq_some_iff.mp hread
    obtain ⟨next', hset', hrest'⟩ := Option.bind_eq_some_iff.mp hread'
    exact ih (halike.set_header ho hv hset hset') hrest hrest'
  | inlineHeader ho hv _ ih =>
    intro arguments arguments' last last' halike hread hread'
    rw [readOptions_inline _ _ _ (takesValue_of_isHeaderOption ho)] at hread hread'
    split_ifs at hread hread'
    obtain ⟨next, hset, hrest⟩ := Option.bind_eq_some_iff.mp hread
    obtain ⟨next', hset', hrest'⟩ := Option.bind_eq_some_iff.mp hread'
    exact ih (halike.set_header ho hv hset hset') hrest hrest'
  | valued ho _ ih =>
    intro arguments arguments' last last' halike hread hread'
    rw [readOptions_valued _ _ _ ho] at hread hread'
    obtain ⟨next, hset, hrest⟩ := Option.bind_eq_some_iff.mp hread
    obtain ⟨next', hset', hrest'⟩ := Option.bind_eq_some_iff.mp hread'
    exact ih (halike.set hset hset') hrest hrest'
  | @token token tokens tokens' ht _ ih =>
    intro arguments arguments' last last' halike hread hread'
    rw [readOptions_def] at hread hread'
    dsimp only at hread hread'
    rw [← halike.url] at hread'
    cases hinline : (cut 0x3d token).2 with
    | none =>
      rw [hinline, cut_eq_none hinline, ht] at hread hread'
      simp only [Option.isSome_none, Bool.false_eq_true, if_false] at hread hread'
      split_ifs at hread hread'
      · exact ih halike hread hread'
      · have hnext : Arguments.Alike { arguments with url := token }
            { arguments' with url := token } :=
          ⟨halike.method, rfl, halike.data, halike.headers⟩
        exact ih hnext hread hread'
    | some value =>
      rw [hinline] at hread hread'
      simp only [Option.isSome_some, if_true, Bool.or_true, Bool.true_or] at hread hread'
      split_ifs at hread hread' with hsilent htakes
      obtain ⟨next, hset, hrest⟩ := Option.bind_eq_some_iff.mp hread
      obtain ⟨next', hset', hrest'⟩ := Option.bind_eq_some_iff.mp hread'
      exact ih (halike.set hset hset') hrest hrest'

/-! ### The headers -/

theorem beginsWith_iff {scheme : Bytes} (hs : scheme ∈ allowedSchemes) (value : Bytes) :
    (scheme.isPrefixOf value && decide (scheme.length < value.length)) = true ↔
      scheme = value.takeWhile (· != 0x20) ++ [0x20] ∧
        value.drop ((value.takeWhile (· != 0x20)).length + 1) ≠ [] := by
  obtain ⟨word, rfl, hword⟩ : ∃ word, scheme = word ++ [0x20] ∧ ∀ c ∈ word, (c != 0x20) = true := by
    have hall : ∀ scheme ∈ allowedSchemes, scheme = scheme.dropLast ++ [0x20] ∧
        ∀ c ∈ scheme.dropLast, (c != 0x20) = true := by decide +kernel
    exact ⟨scheme.dropLast, hall scheme hs⟩
  rw [Bool.and_eq_true, List.isPrefixOf_iff_prefix, decide_eq_true_eq]
  constructor
  · rintro ⟨⟨after, rfl⟩, hlength⟩
    have htake : (word ++ [0x20] ++ after).takeWhile (· != 0x20) = word := by
      rw [List.append_assoc, List.takeWhile_append_of_pos hword]
      simp
    rw [htake]
    refine ⟨rfl, fun hdrop => ?_⟩
    rw [List.drop_eq_nil_iff] at hdrop
    simp only [List.length_append, List.length_singleton] at hlength hdrop
    omega
  · rintro ⟨heq, hdrop⟩
    have hword' : word = value.takeWhile (· != 0x20) := List.append_cancel_right heq
    rw [← hword'] at hdrop
    have hlength : word.length + 1 < value.length := by
      by_contra hle
      exact hdrop (List.drop_eq_nil_iff.mpr (by omega))
    constructor
    · have hsplit : word ++ value.dropWhile (· != 0x20) = value := by
        rw [hword']
        exact List.takeWhile_append_dropWhile
      cases hafter : value.dropWhile (· != 0x20) with
      | nil =>
        rw [hafter, List.append_nil] at hsplit
        rw [hsplit] at hlength
        omega
      | cons c after =>
        have hspace := List.head?_dropWhile_not (· != 0x20) value
        rw [hafter, List.head?_cons] at hspace
        obtain rfl : c = 0x20 := by simpa using hspace
        exact ⟨after, by rw [List.append_assoc, List.singleton_append, ← hafter]; exact hsplit⟩
    · simpa using hlength

theorem splitSecretPrefix_eq {name : Bytes} (value : Bytes) :
    splitSecretPrefix name value =
      if toLower name = bytes "authorization" then
        (schemeOf value, value.drop (schemeOf value).length)
      else ([], value) := by
  by_cases hname : toLower name = bytes "authorization"
  · rw [if_pos hname]
    have hallowed : allowedSecretPrefix name (value.takeWhile (· != 0x20) ++ [0x20]) =
        allowedSchemes.contains (value.takeWhile (· != 0x20) ++ [0x20]) := by
      simp [allowedSecretPrefix, allowedSchemes, hname]
    unfold splitSecretPrefix
    simp only [hname, hallowed, decide_true, Bool.true_and]
    cases hfound : allowedSchemes.find? fun scheme =>
        scheme.isPrefixOf value && scheme.length < value.length with
    | none =>
      have hnone : schemeOf value = [] := by rw [schemeOf, hfound, Option.getD_none]
      rw [hnone, if_neg]
      · rfl
      · intro hc
        simp only [Bool.and_eq_true, List.contains_iff_mem] at hc
        have hbegins := List.find?_eq_none.mp hfound _ hc.2
        exact hbegins ((beginsWith_iff hc.2 value).mpr ⟨rfl, by simpa using hc.1.2⟩)
    | some scheme =>
      have hsome : schemeOf value = scheme := by rw [schemeOf, hfound, Option.getD_some]
      have hmem := List.mem_of_find?_eq_some hfound
      have hbegins := List.find?_some hfound
      obtain ⟨heq, hafter⟩ := (beginsWith_iff hmem value).mp hbegins
      have hbefore : value.takeWhile (· != 0x20) ≠ [] := fun hnil => by
        rw [heq, hnil] at hmem
        exact absurd hmem (by decide)
      rw [heq] at hmem
      rw [hsome, heq, if_pos]
      · simp
      · simp only [Bool.and_eq_true, List.contains_iff_mem]
        exact ⟨⟨by simpa using hbefore, by simpa using hafter⟩, hmem⟩
  · rw [if_neg hname]
    simp [splitSecretPrefix, hname]

theorem importHeader_eq {encoded : Bytes} {result : Option (Header × Bytes)}
    (h : importHeader encoded = some result) :
    result = if isMediaHeader encoded then none
      else some (⟨headerName encoded, [], headerScheme encoded⟩, credential encoded) := by
  have hsplit : splitSecretPrefix (headerName encoded) (headerValue encoded) =
      (headerScheme encoded, credential encoded) := by
    rw [splitSecretPrefix_eq]
    unfold credential headerScheme
    split_ifs
    · rfl
    · rfl
  unfold importHeader at h
  change (if _ then none else if toLower (headerName encoded) = bytes "accept" ∨
    toLower (headerName encoded) = bytes "content-type" then _ else if _ then none
    else if (splitSecretPrefix (headerName encoded) (headerValue encoded)).2.isEmpty then none
    else some (some (⟨headerName encoded, [],
      (splitSecretPrefix (headerName encoded) (headerValue encoded)).1⟩,
      (splitSecretPrefix (headerName encoded) (headerValue encoded)).2))) = some result at h
  rw [hsplit] at h
  have hmedia : isMediaHeader encoded = true ↔ toLower (headerName encoded) = bytes "accept" ∨
      toLower (headerName encoded) = bytes "content-type" := by
    simp [isMediaHeader]
  split_ifs at h with hbad haccept hjson hforbidden hempty
  · rw [if_pos (hmedia.mpr haccept)]
    exact (Option.some.inj h).symm
  · rw [if_neg fun hm => haccept (hmedia.mp hm)]
    exact (Option.some.inj h).symm

theorem importHeader_alike {encoded encoded' : Bytes} (h : HeaderAlike encoded encoded')
    {result result' : Option (Header × Bytes)} (himport : importHeader encoded = some result)
    (himport' : importHeader encoded' = some result') :
    result.map Prod.fst = result'.map Prod.fst := by
  cases h with
  | same =>
    rw [Option.some.inj (himport.symm.trans himport')]
  | credential name scheme media =>
    have hname : headerName encoded = headerName encoded' := by
      unfold headerName
      rw [name]
    have hmedia : isMediaHeader encoded' = isMediaHeader encoded := by
      unfold isMediaHeader
      rw [hname]
    rw [importHeader_eq himport, importHeader_eq himport', hmedia, media, hname, scheme]
    rfl

/-- **The loop over the headers.** -/
theorem importHeaders_alike {all all' : List Bytes} (h : List.Forall₂ HeaderAlike all all') :
    ∀ {headers last last' : List Header} {secrets secrets' kept kept' : List ImportedSecret},
      importHeaders headers secrets all = some (last, kept) →
      importHeaders headers secrets' all' = some (last', kept') → last = last' := by
  induction h with
  | nil =>
    intro headers last last' secrets secrets' kept kept' himport himport'
    obtain ⟨rfl, -⟩ := Prod.mk.inj (Option.some.inj himport)
    obtain ⟨rfl, -⟩ := Prod.mk.inj (Option.some.inj himport')
    rfl
  | @cons encoded encoded' rest rest' halike _ ih =>
    intro headers last last' secrets secrets' kept kept' himport himport'
    rw [importHeaders] at himport himport'
    cases hone : importHeader encoded with
    | none => simp [hone] at himport
    | some result =>
      cases hone' : importHeader encoded' with
      | none => simp [hone'] at himport'
      | some result' =>
        have hsame := importHeader_alike halike hone hone'
        rw [hone] at himport
        rw [hone'] at himport'
        cases result with
        | none =>
          obtain rfl : result' = none := by simpa using hsame.symm
          exact ih himport himport'
        | some kept =>
          obtain ⟨header', secret', rfl⟩ : ∃ header' secret', result' = some (header', secret') := by
            cases result' with
            | none => simp at hsame
            | some kept' => exact ⟨kept'.1, kept'.2, rfl⟩
          obtain rfl : kept.1 = header' := by simpa using hsame
          exact ih himport himport'

theorem importHeaders_secrets {all : List Bytes} :
    ∀ {headers last : List Header} {secrets kept : List ImportedSecret},
      importHeaders headers secrets all = some (last, kept) →
      secrets.map ImportedSecret.headerIndex = List.range headers.length →
      kept.map ImportedSecret.headerIndex = List.range last.length ∧
        kept.map ImportedSecret.value = secrets.map ImportedSecret.value ++
          (all.filter fun encoded => !isMediaHeader encoded).map credential := by
  induction all with
  | nil =>
    intro headers last secrets kept himport hindex
    obtain ⟨rfl, rfl⟩ := Prod.mk.inj (Option.some.inj himport)
    exact ⟨hindex, by simp⟩
  | cons encoded rest ih =>
    intro headers last secrets kept himport hindex
    rw [importHeaders] at himport
    cases hone : importHeader encoded with
    | none => simp [hone] at himport
    | some result =>
      rw [hone] at himport
      have hresult := importHeader_eq hone
      by_cases hmedia : isMediaHeader encoded = true
      · rw [if_pos hmedia] at hresult
        subst hresult
        obtain ⟨hindex', hvalue⟩ := ih himport hindex
        exact ⟨hindex', by rw [hvalue]; simp [hmedia]⟩
      · rw [if_neg hmedia] at hresult
        subst hresult
        obtain ⟨hindex', hvalue⟩ := ih himport (by
          rw [List.map_append, hindex, List.length_append, List.length_singleton,
            List.range_succ]
          rfl)
        exact ⟨hindex', by rw [hvalue]; simp [hmedia]⟩

/-! ### The import -/

theorem importCurl_eq_some {network : Network} {source : Bytes} {imported : CurlImport}
    (h : importCurl network source = some imported) :
    ∃ tokens arguments request headers, curlTokens source = some (bytes "curl" :: tokens) ∧
      readOptions {} tokens = some arguments ∧ arguments.request network = some request ∧
      importHeaders [] [] arguments.encodedHeaders = some (headers, imported.secrets) ∧
      imported.request = { request with headers := some headers } := by
  unfold importCurl at h
  simp only [Option.bind_eq_bind, Option.bind_eq_some_iff] at h
  obtain ⟨tokens, htokens, _, hcurl, arguments, hoptions, request, hrequest, ⟨headers, secrets⟩,
    hheaders, _, hdraft, hresult⟩ := h
  obtain rfl := Option.some.inj hresult
  obtain ⟨hlength, hhead⟩ : 2 ≤ tokens.length ∧ tokens.head? = some (bytes "curl") := by
    simpa [guard] using hcurl
  obtain ⟨rest, rfl⟩ : ∃ rest, tokens = bytes "curl" :: rest := by
    cases tokens with
    | nil => simp at hhead
    | cons token rest => exact ⟨rest, by rw [Option.some.inj hhead]⟩
  exact ⟨rest, arguments, request, headers, htokens, hoptions, hrequest, hheaders, rfl⟩

theorem Arguments.Alike.request {arguments arguments' : Arguments} (network : Network)
    (h : arguments.Alike arguments') : arguments.request network = arguments'.request network := by
  unfold Arguments.request
  rw [h.method, h.url, h.data]

/-- **Credentials.**  Two sources that are imported and whose tokens are equal up to the credentials
of header arguments give one request, and every credential stands in the secrets alone, one for
each header of the request. -/
theorem importCurl_credentials (network : Network) (source source' : Bytes)
    (tokens tokens' : List Bytes) (imported imported' : CurlImport)
    (lexed : curlTokens source = some tokens) (lexed' : curlTokens source' = some tokens')
    (alike : TokensAlike tokens.tail tokens'.tail)
    (accepted : importCurl network source = some imported)
    (accepted' : importCurl network source' = some imported') :
    imported.request = imported'.request ∧
      imported.secrets.map ImportedSecret.headerIndex =
        List.range (imported.request.headers.getD []).length ∧
      ∃ arguments, readOptions {} tokens.tail = some arguments ∧
        imported.secrets.map ImportedSecret.value =
          (arguments.encodedHeaders.filter fun encoded => !isMediaHeader encoded).map
            credential := by
  obtain ⟨rest, arguments, request, headers, htokens, hoptions, hrequest, hheaders, hresult⟩ :=
    importCurl_eq_some accepted
  obtain ⟨rest', arguments', request', headers', htokens', hoptions', hrequest', hheaders',
    hresult'⟩ := importCurl_eq_some accepted'
  obtain rfl := Option.some.inj (lexed.symm.trans htokens)
  obtain rfl := Option.some.inj (lexed'.symm.trans htokens')
  have hstart : Arguments.Alike {} {} := ⟨rfl, rfl, rfl, .nil⟩
  have hlast := readOptions_alike alike hstart hoptions hoptions'
  obtain rfl : headers = headers' := importHeaders_alike hlast.headers hheaders hheaders'
  obtain rfl : request = request' :=
    Option.some.inj (hrequest.symm.trans ((hlast.request network).trans hrequest'))
  obtain ⟨hindex, hvalue⟩ := importHeaders_secrets hheaders rfl
  refine ⟨by rw [hresult, hresult'], ?_, arguments, hoptions, ?_⟩
  · rw [hresult]
    exact hindex
  · rw [hvalue]
    simp

/-- A target on the host `h`. -/
def pastedNetwork : Network where
  splitHostPort _ := none
  parseIp _ := none
  parseUrl _ := some ⟨bytes "https", bytes "h", bytes "h", false, [], [], []⟩

def pastedTokens (credential : Bytes) : List Bytes :=
  [bytes "curl", bytes "https://h", bytes "-H", bytes "Authorization: Bearer " ++ credential]

def pastedSource (credential : Bytes) : Bytes :=
  bytes "curl https://h -H 'Authorization: Bearer " ++ credential ++ bytes "'"

def pastedImport (credential : Bytes) : CurlImport where
  request := ⟨bytes "GET", bytes "https://h",
    some [⟨bytes "Authorization", [], bytes "Bearer "⟩], []⟩
  secrets := [⟨bytes "imported_header_1", 0, credential⟩]

theorem importCurl_credentials_pasted :
    (pastedImport (bytes "a")).request = (pastedImport (bytes "bc")).request :=
  (importCurl_credentials pastedNetwork (pastedSource (bytes "a")) (pastedSource (bytes "bc"))
    (pastedTokens (bytes "a")) (pastedTokens (bytes "bc")) (pastedImport (bytes "a"))
    (pastedImport (bytes "bc")) (by decide +kernel) (by decide +kernel)
    (.token (by decide) (.header (by decide)
      (.credential (by decide +kernel) (by decide +kernel) (by decide +kernel)) .nil))
    (by decide +kernel) (by decide +kernel)).1

end RlcdDeck.StructuredProvider
