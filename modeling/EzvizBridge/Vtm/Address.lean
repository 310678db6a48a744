import EzvizBridge.Basic
import EzvizBridge.Lib.Decimal
import EzvizBridge.Lib.FormUrlencoded
import EzvizBridge.Lib.Ipv6
import EzvizBridge.Lib.Keyed
import Mathlib.Data.List.Sort
import Mathlib.Data.String.Basic

/-!
# The address of a stream

`vtm/address.rs`. A stream is asked for by a `ysproto` URL, which holds the host and port of the
server and the parameters of the stream, those of a business URL among them. `endpoint` reads host
and port back.

The `url` crate is in `UrlCrate`; `UrlCrate.Lawful` is what the module relies on. Of an IPv6 host
the crate returns the brackets too, so that an address comes back as it was (`Survives`) exactly
when its host is no IPv6 literal and no parameter of the business URL is repeated with another value
(`vtm_address_iff`).
-/

namespace EzvizBridge

namespace Vtm

/-- `Url`, as far as the module reads it. -/
structure ParsedUrl where
  scheme : String
  hostStr : Option String
  port : Option UInt16
  query : Option String
  deriving DecidableEq

/-- The functions of the `url` crate. -/
structure UrlCrate where
  /-- `Url::parse`. -/
  parse : String → Option ParsedUrl
  /-- `form_urlencoded::parse`. -/
  formParse : String → List (String × String)
  /-- `form_urlencoded::Serializer`. -/
  formSerialize : List (String × String) → String

/-- What a URL is made of. -/
structure VtmUrlRequest where
  host : String
  port : UInt16
  serial : String
  channel : UInt16
  substream : Bool
  bizUrl : String
  token : String
  timestampMs : ℤ

/-- The parameters of a live stream. -/
def liveParams (request : VtmUrlRequest) : List (String × String) :=
  [("dev", request.serial), ("chn", toString request.channel.toNat),
    ("stream", if request.substream then "2" else "1"), ("cln", "9"), ("isp", "0"), ("auth", "1"),
    ("ssn", request.token), ("vip", "0"), ("timestamp", toString request.timestampMs)]

/-- The parameters of a playback. -/
def playbackParams (request : VtmUrlRequest) (begin_ end_ : String) : List (String × String) :=
  [("dev", request.serial), ("chn", toString request.channel.toNat), ("stream", "1"),
    ("begin", begin_), ("end", end_), ("serial", request.serial), ("cln", "3"), ("isp", "0"),
    ("auth", "1"), ("ssn", request.token), ("rnd", toString (request.timestampMs % 2 ^ 31)),
    ("timestamp", toString request.timestampMs), ("etp", "1")]

/-- The query of a business URL: what is behind the first question mark, or all of it. -/
def bizQuery (bizUrl : String) : String :=
  match bizUrl.toList.dropWhile fun character => character ≠ '?' with
  | _ :: query => String.ofList query
  | [] => String.ofList (bizUrl.toList.dropWhile fun character => character = '?')

/-- `host`. -/
def hostText (value : String) : String :=
  if (Ipv6.fromStr value.toList).isSome then "[" ++ value ++ "]" else value

/-- The URL of a host in the form that it has in a URL. -/
def address (host : String) (port : UInt16) (path query : String) : String :=
  "ysproto://" ++ host ++ ":" ++ toString port.toNat ++ "/" ++ path ++ "?" ++ query

section

variable (crate : UrlCrate)

/-- The map of `query_params`: the pairs of the business URL, and the own ones in place of
theirs. -/
def overlaid (request : VtmUrlRequest) (own : List (String × String)) : List (String × String) :=
  own.foldl (Keyed.insert Prod.fst)
    ((crate.formParse (bizQuery request.bizUrl)).foldl (Keyed.insert Prod.fst) [])

def queryParams (request : VtmUrlRequest) (own : List (String × String)) : String :=
  crate.formSerialize ((overlaid crate request own).insertionSort fun a b => a.1 ≤ b.1)

def buildVtmUrl (request : VtmUrlRequest) : String :=
  address (hostText request.host) request.port "live"
    (queryParams crate request (liveParams request))

def buildVtmPlaybackUrl (request : VtmUrlRequest) (begin_ end_ : String) : String :=
  address (hostText request.host) request.port "playback"
    (queryParams crate request (playbackParams request begin_ end_))

/-- `endpoint`. -/
def endpoint (value : String) : Except BridgeError (String × UInt16) :=
  match crate.parse value with
  | none => .error (.upstream "invalid VTM URL")
  | some parsed =>
    if parsed.scheme ≠ "ysproto" then .error (.upstream "invalid VTM URL scheme")
    else
      match parsed.hostStr with
      | none => .error (.upstream "VTM URL omitted host")
      | some host =>
        match parsed.port with
        | none => .error (.upstream "VTM URL omitted port")
        | some port => .ok (host, port)

/-- The query of a URL, decoded. -/
def decoded (value : String) : List (String × String) :=
  ((crate.parse value).bind ParsedUrl.query).elim [] crate.formParse

end

/-! ### What the crate does -/

/-- The characters of DNS names and IPv4 addresses. -/
def isNameChar (character : Char) : Bool :=
  character.isAlphanum || character = '-' || character = '.' || character = '_'

/-- A DNS name or an IPv4 address. -/
def IsName (host : String) :
    Prop := host ≠ "" ∧ ∀ character ∈ host.toList, isNameChar character = true

def IsIpv6 (host : String) : Prop := (Ipv6.fromStr host.toList).isSome = true

/-- Forms are read back as they were written, names come out of a URL as they are in it, and IPv6
addresses in brackets. -/
structure UrlCrate.Lawful (crate : UrlCrate) : Prop where
  form : ∀ pairs, crate.formParse (crate.formSerialize pairs) = pairs
  name : ∀ host port path pairs, IsName host → path ∈ ["live", "playback"] →
    crate.parse (address host port path (crate.formSerialize pairs)) = some {
      scheme := "ysproto"
      hostStr := some host
      port := some port
      query := some (crate.formSerialize pairs) }
  ipv6 : ∀ host port path pairs, IsIpv6 host → path ∈ ["live", "playback"] → ∃ literal,
    crate.parse (address ("[" ++ host ++ "]") port path (crate.formSerialize pairs)) = some {
      scheme := "ysproto"
      hostStr := some ("[" ++ literal ++ "]")
      port := some port
      query := some (crate.formSerialize pairs) }

/-! ### What survives -/

/-- The address and all parameters come out of the URL as they were: host and port, the own
parameters with no other value, and the others of the business URL. -/
structure Survives (crate : UrlCrate) (request : VtmUrlRequest) (own : List (String × String))
    (url : String) : Prop where
  endpoint_eq : endpoint crate url = .ok (request.host, request.port)
  own_exact : ∀ pair ∈ own, pair ∈ decoded crate url ∧
    ∀ value, (pair.1, value) ∈ decoded crate url → value = pair.2
  others_kept : ∀ pair ∈ crate.formParse (bizQuery request.bizUrl), pair.1 ∉ own.map Prod.fst →
    pair ∈ decoded crate url

/-- No parameter but the own ones is repeated with another value. -/
def Unrepeated (pairs own : List (String × String)) : Prop :=
  ∀ pair ∈ pairs, ∀ pair' ∈ pairs, pair.1 = pair'.1 → pair.1 ∉ own.map Prod.fst → pair = pair'

variable {crate : UrlCrate} {request : VtmUrlRequest} {own : List (String × String)} {path : String}

theorem IsName.not_ipv6 {host : String} (h : IsName host) : ¬IsIpv6 host := by
  have hcolon : ':' ∉ host.toList := fun hmem => absurd (h.2 ':' hmem) (by decide)
  rw [IsIpv6, Ipv6.fromStr_eq_none hcolon]
  exact Bool.false_ne_true

/-- An IPv6 literal has no brackets. -/
theorem IsIpv6.ne_brackets {host literal : String} (h : IsIpv6 host) :
    "[" ++ literal ++ "]" ≠ host := by
  rintro rfl
  obtain ⟨groups, hgroups⟩ := Option.isSome_iff_exists.mp h
  have hmem : '[' ∈ ("[" ++ literal ++ "]").toList := by
    rw [String.toList_append, String.toList_append]
    exact List.mem_append_left _ (List.mem_append_left _ (by decide))
  exact absurd (Ipv6.isAddressChar_of_fromStr hgroups '[' hmem) (by decide)

theorem hostText_of_ipv6 {host : String} (h : IsIpv6 host) : hostText host = "[" ++ host ++ "]" :=
  if_pos h

theorem hostText_of_not_ipv6 {host : String} (h : ¬IsIpv6 host) : hostText host = host :=
  if_neg h

theorem distinct_overlaid : Keyed.Distinct Prod.fst (overlaid crate request own) :=
  Keyed.distinct_foldl_insert (Keyed.distinct_foldl_insert List.nodup_nil)

/-- Every own parameter is in the map. -/
theorem own_mem_overlaid (hown : Keyed.Distinct Prod.fst own) {pair : String × String}
    (h : pair ∈ own) :
    pair ∈ overlaid crate request own := by
  obtain ⟨found, hfound, hkey, hmem⟩ : ∃ found ∈ own, found.1 = pair.1 ∧
      found ∈ overlaid crate request own := Keyed.exists_mem_foldl_insert (List.mem_map_of_mem h)
  rwa [Keyed.eq_of_mem hown hfound h hkey] at hmem

/-- A parameter of the business URL is in the map, if it is not an own one and not repeated. -/
theorem biz_mem_overlaid (hunrepeated : Unrepeated (crate.formParse (bizQuery request.bizUrl)) own)
    {pair : String × String} (h : pair ∈ crate.formParse (bizQuery request.bizUrl))
    (hother : pair.1 ∉ own.map Prod.fst) : pair ∈ overlaid crate request own := by
  obtain ⟨found, hfound, hkey, hmem⟩ : ∃ found ∈ crate.formParse (bizQuery request.bizUrl),
      found.1 = pair.1 ∧
        found ∈ (crate.formParse (bizQuery request.bizUrl)).foldl (Keyed.insert Prod.fst) [] :=
    Keyed.exists_mem_foldl_insert (List.mem_map_of_mem h)
  rw [overlaid, Keyed.mem_foldl_insert_of_notMem hother]
  rwa [hunrepeated pair h found hfound hkey.symm hother]

/-- The URL with the own parameters `own`. -/
def urlOf (crate : UrlCrate) (request : VtmUrlRequest) (path : String)
    (own : List (String × String)) :
    String :=
  address (hostText request.host) request.port path (queryParams crate request own)

/-- The parameters of a URL are those of the map, whatever the host. -/
theorem mem_decoded_urlOf (hlawful : crate.Lawful)
    (hhost : IsName request.host ∨ IsIpv6 request.host) (hpath : path ∈ ["live", "playback"])
    {pair : String × String} :
    pair ∈ decoded crate (urlOf crate request path own) ↔ pair ∈ overlaid crate request own := by
  -- the URL parses, and its query is the written one
  have hquery : ∃ parsed, crate.parse (urlOf crate request path own) = some parsed ∧
      parsed.query = some (queryParams crate request own) := by
    by_cases hipv6 : IsIpv6 request.host
    · obtain ⟨literal, hparse⟩ := hlawful.ipv6 request.host request.port path _ hipv6 hpath
      rw [urlOf, hostText_of_ipv6 hipv6]
      exact ⟨_, hparse, rfl⟩
    · rw [urlOf, hostText_of_not_ipv6 hipv6]
      exact ⟨_, hlawful.name _ _ _ _ (hhost.resolve_right hipv6) hpath, rfl⟩
  obtain ⟨parsed, hparse, hquery⟩ := hquery
  have hdecoded : decoded crate (urlOf crate request path own) =
      crate.formParse (queryParams crate request own) := by
    rw [decoded, hparse, Option.bind_some, hquery]
    rfl
  rw [hdecoded, queryParams, hlawful.form]
  exact List.mem_insertionSort _

/-- Host and port come back exactly when the host is no IPv6 literal. -/
theorem endpoint_urlOf (hlawful : crate.Lawful) (hhost : IsName request.host ∨ IsIpv6 request.host)
    (hpath : path ∈ ["live", "playback"]) :
    endpoint crate (urlOf crate request path own) = .ok (request.host, request.port) ↔
      ¬IsIpv6 request.host := by
  by_cases hipv6 : IsIpv6 request.host
  · -- the reader leaves the brackets on
    obtain ⟨literal, hparse⟩ := hlawful.ipv6 request.host request.port path _ hipv6 hpath
    have hendpoint : endpoint crate (address ("[" ++ request.host ++ "]") request.port path
        (queryParams crate request own)) = .ok ("[" ++ literal ++ "]", request.port) := by
      rw [endpoint, queryParams, hparse]
      rfl
    rw [urlOf, hostText_of_ipv6 hipv6, hendpoint]
    refine iff_of_false ?_ (not_not_intro hipv6)
    intro heq
    injection heq with hpair
    exact hipv6.ne_brackets (Prod.mk.inj hpair).1
  · rw [urlOf, hostText_of_not_ipv6 hipv6, endpoint, queryParams,
      hlawful.name _ _ _ _ (hhost.resolve_right hipv6) hpath]
    exact iff_of_true rfl hipv6

/-- **An address survives** exactly when its host is no IPv6 literal and nothing is repeated. -/
theorem survives_iff (hlawful : crate.Lawful) (hhost : IsName request.host ∨ IsIpv6 request.host)
    (hpath : path ∈ ["live", "playback"]) (hown : Keyed.Distinct Prod.fst own) :
    Survives crate request own (urlOf crate request path own) ↔
      ¬IsIpv6 request.host ∧ Unrepeated (crate.formParse (bizQuery request.bizUrl)) own := by
  have hmem {pair : String × String} :
      pair ∈ decoded crate (urlOf crate request path own) ↔ pair ∈ overlaid crate request own :=
    mem_decoded_urlOf hlawful hhost hpath
  have hdistinct : Keyed.Distinct Prod.fst (overlaid crate request own) := distinct_overlaid
  constructor
  -- host and port, and no parameter twice
  · intro h
    refine ⟨(endpoint_urlOf hlawful hhost hpath).mp h.endpoint_eq, ?_⟩
    -- both values of a repeated parameter would be in a map
    intro pair hpair pair' hpair' hkey hother
    have hkept := hmem.mp (h.others_kept pair hpair hother)
    have hkept' := hmem.mp (h.others_kept pair' hpair' (hkey ▸ hother))
    exact Keyed.eq_of_mem hdistinct hkept hkept' hkey
  -- the own parameters win, and the others are kept
  · rintro ⟨hname, hunrepeated⟩
    refine ⟨(endpoint_urlOf hlawful hhost hpath).mpr hname, ?_, ?_⟩
    · intro pair hpair
      have hthere : pair ∈ overlaid crate request own := own_mem_overlaid hown hpair
      refine ⟨hmem.mpr hthere, fun value hvalue => ?_⟩
      exact congrArg Prod.snd (Keyed.eq_of_mem hdistinct (hmem.mp hvalue) hthere rfl)
    · intro pair hpair hother
      exact hmem.mpr (biz_mem_overlaid hunrepeated hpair hother)

/-! ### A crate for these URLs -/

open FormUrlencoded (splitFirst splitFirst_append)

/-- Host and port of an authority. -/
def splitAuthority : List Char → List Char × List Char
  | '[' :: rest =>
    let (literal, rest) := splitFirst ']' rest
    ('[' :: (literal ++ [']']), rest.drop 1)
  | authority => splitFirst ':' authority

/-- A crate that takes the URLs of this module apart at their separators. -/
def plainCrate : UrlCrate where
  parse value :=
    let (scheme, rest) := splitFirst ':' value.toList
    let (authority, rest) := splitFirst '/' (rest.drop 2)
    let (host, port) := splitAuthority authority
    some {
      scheme := String.ofList scheme
      hostStr := some (String.ofList host)
      port := some (UInt16.ofNat (Nat.ofDigitChars 10 port 0))
      query := some (String.ofList (splitFirst '?' rest).2) }
  formParse := FormUrlencoded.parse
  formSerialize := FormUrlencoded.serialize

/-- The text of an address, in its parts. -/
theorem toList_address (host : String) (port : UInt16) (path query : String) :
    (address host port path query).toList =
      "ysproto".toList ++ ':' :: '/' :: '/' ::
        ((host.toList ++ ':' :: (toString port.toNat).toList) ++
          '/' :: (path.toList ++ '?' :: query.toList)) := by
  have hscheme : "ysproto://".toList = "ysproto".toList ++ [':', '/', '/'] := by decide
  have hcolon : ":".toList = [':'] := by decide
  have hslash : "/".toList = ['/'] := by decide
  have hmark : "?".toList = ['?'] := by decide
  unfold address
  simp only [String.toList_append, hscheme, hcolon, hslash, hmark, List.append_assoc,
    List.cons_append, List.nil_append]

/-- A name ends at its colon. -/
theorem splitAuthority_name {host : String} (h : IsName host) (port : List Char) :
    splitAuthority (host.toList ++ ':' :: port) = (host.toList, port) := by
  have hcolon : ':' ∉ host.toList := fun hmem => absurd (h.2 ':' hmem) (by decide)
  have hbracket : '[' ∉ host.toList := fun hmem => absurd (h.2 '[' hmem) (by decide)
  -- there is no bracket, so the colon decides
  have hplain : splitAuthority (host.toList ++ ':' :: port) =
      splitFirst ':' (host.toList ++ ':' :: port) := by
    unfold splitAuthority
    split
    · next rest heq =>
      cases htext : host.toList with
      | nil => exact nomatch htext ▸ heq
      | cons first others =>
        rw [htext, List.cons_append] at heq
        exact absurd ((List.cons.inj heq).1 ▸ htext ▸ List.mem_cons_self) hbracket
    · rfl
  rw [hplain, splitFirst_append hcolon]

theorem splitAuthority_brackets {literal : List Char} (h : ']' ∉ literal) (port : List Char) :
    splitAuthority ('[' :: (literal ++ ']' :: ':' :: port)) =
      ('[' :: (literal ++ [']']), port) := by
  rw [splitAuthority, splitFirst_append h]
  rfl

/-- The concrete parser reads what is written. -/
theorem plainCrate_parse {host path : String} (hhost : '/' ∉ host.toList)
    (hpath : path ∈ ["live", "playback"]) {port : UInt16} {query : String} {written : List Char}
    (hauthority : splitAuthority (host.toList ++ ':' :: (toString port.toNat).toList) =
      (written, (toString port.toNat).toList)) :
    plainCrate.parse (address host port path query) = some {
      scheme := "ysproto"
      hostStr := some (String.ofList written)
      port := some port
      query := some query } := by
  -- the parts hold none of the separators in front of them
  have hslash : '/' ∉ host.toList ++ ':' :: (toString port.toNat).toList := by
    rw [List.mem_append, List.mem_cons, not_or, not_or]
    refine ⟨hhost, by decide, fun hmem => ?_⟩
    exact absurd (Decimal.isDigit_of_mem hmem) (by decide)
  have hscheme : ':' ∉ "ysproto".toList := by decide
  have hmark : '?' ∉ path.toList := by
    rw [List.mem_pair] at hpath
    obtain rfl | rfl := hpath <;> decide
  have hport : UInt16.ofNat (Nat.ofDigitChars 10 (toString port.toNat).toList 0) = port := by
    rw [Decimal.toList_toString, Nat.ofDigitChars_toDigits (by decide) (by decide),
      UInt16.ofNat_toNat]
  simp only [plainCrate, toList_address, splitFirst_append hscheme, List.drop_succ_cons,
    List.drop_zero, splitFirst_append hslash, hauthority, hport, splitFirst_append hmark,
    String.ofList_toList]

/-- The concrete parser keeps the brackets. -/
theorem plainCrate_ipv6 {host path : String} (h : IsIpv6 host) (hpath : path ∈ ["live", "playback"])
    {port : UInt16} {query : String} :
    plainCrate.parse (address ("[" ++ host ++ "]") port path query) = some {
      scheme := "ysproto"
      hostStr := some ("[" ++ host ++ "]")
      port := some port
      query := some query } := by
  obtain ⟨groups, hgroups⟩ := Option.isSome_iff_exists.mp h
  -- a literal holds neither a bracket nor a slash
  have hchars := Ipv6.isAddressChar_of_fromStr hgroups
  have hbracket : ']' ∉ host.toList := fun hmem => absurd (hchars ']' hmem) (by decide)
  have hslash : '/' ∉ host.toList := fun hmem => absurd (hchars '/' hmem) (by decide)
  have htext : ("[" ++ host ++ "]").toList = '[' :: (host.toList ++ [']']) := by simp
  have hauthority : splitAuthority
      (("[" ++ host ++ "]").toList ++ ':' :: (toString port.toNat).toList) =
      (("[" ++ host ++ "]").toList, (toString port.toNat).toList) := by
    rw [htext, List.cons_append, List.append_assoc]
    exact splitAuthority_brackets hbracket _
  rw [plainCrate_parse _ hpath hauthority, String.ofList_toList]
  rw [htext]
  simp [hslash]

/-- The concrete parser is lawful. -/
theorem plainCrate_lawful : plainCrate.Lawful where
  form := FormUrlencoded.parse_serialize
  name host port path pairs hname hpath := by
    have hslash : '/' ∉ host.toList := fun hmem => absurd (hname.2 '/' hmem) (by decide)
    rw [plainCrate_parse hslash hpath (splitAuthority_name hname _), String.ofList_toList]
  ipv6 host port path pairs hipv6 hpath := ⟨host, plainCrate_ipv6 hipv6 hpath⟩

/-! ### The round trip -/

/-- **A VTM address survives its URL**, of a live stream and of a playback, exactly when its host is
no IPv6 literal and no parameter of the business URL but the own ones is repeated with another
value. -/
theorem vtm_address_iff (hlawful : crate.Lawful) (request : VtmUrlRequest)
    (hhost : IsName request.host ∨ IsIpv6 request.host) (begin_ end_ : String) :
    (Survives crate request (liveParams request) (buildVtmUrl crate request) ↔
      ¬IsIpv6 request.host ∧
        Unrepeated (crate.formParse (bizQuery request.bizUrl)) (liveParams request)) ∧
    (Survives crate request (playbackParams request begin_ end_)
        (buildVtmPlaybackUrl crate request begin_ end_) ↔
      ¬IsIpv6 request.host ∧
        Unrepeated (crate.formParse (bizQuery request.bizUrl))
          (playbackParams request begin_ end_)) := by
  -- the own parameters have different names
  have hlive : Keyed.Distinct Prod.fst (liveParams request) := by
    show ["dev", "chn", "stream", "cln", "isp", "auth", "ssn", "vip", "timestamp"].Nodup
    decide
  have hplayback : Keyed.Distinct Prod.fst (playbackParams request begin_ end_) := by
    show ["dev", "chn", "stream", "begin", "end", "serial", "cln", "isp", "auth", "ssn", "rnd",
        "timestamp",
      "etp"].Nodup
    decide
  constructor
  · exact survives_iff hlawful hhost (by decide) hlive
  · exact survives_iff hlawful hhost (by decide) hplayback

/-- A request to a server. -/
def requestTo (host : String) : VtmUrlRequest where
  host := host
  port := 8554
  serial := "SERIAL"
  channel := 7
  substream := true
  bizUrl := "?source=1&substream=1&stream=1"
  token := "a&b=c"
  timestampMs := 42

/-- A name as the host, and nothing repeated. -/
theorem vtm_address_iff_sample :
    Survives plainCrate (requestTo "vtm.example") (liveParams (requestTo "vtm.example"))
        (buildVtmUrl plainCrate (requestTo "vtm.example")) ∧
      Survives plainCrate (requestTo "vtm.example")
        (playbackParams (requestTo "vtm.example") "a" "b")
        (buildVtmPlaybackUrl plainCrate (requestTo "vtm.example") "a" "b") := by
  have hchars : "vtm.example".toList.all isNameChar = true := by decide
  have hname : IsName "vtm.example" := ⟨by decide, List.all_eq_true.mp hchars⟩
  have hparams : plainCrate.formParse (bizQuery (requestTo "vtm.example").bizUrl) =
      [("source", "1"), ("substream", "1"), ("stream", "1")] := by decide +kernel
  have hunrepeated : ∀ own,
      Unrepeated (plainCrate.formParse (bizQuery (requestTo "vtm.example").bizUrl))
      own := by
    intro own pair hpair pair' hpair' hkey _
    rw [hparams] at hpair hpair'
    exact List.inj_on_of_nodup_map (f := Prod.fst) (by decide) hpair hpair' hkey
  have h := vtm_address_iff plainCrate_lawful (requestTo "vtm.example") (Or.inl hname) "a" "b"
  exact ⟨h.1.mpr ⟨hname.not_ipv6, hunrepeated _⟩, h.2.mpr ⟨hname.not_ipv6, hunrepeated _⟩⟩

/-- The brackets of an IPv6 address are still there when it is to be connected to. -/
theorem ipv6_brackets_stay :
    plainCrate.Lawful ∧ IsIpv6 (requestTo "2001:db8::1").host ∧
      endpoint plainCrate (buildVtmUrl plainCrate (requestTo "2001:db8::1")) =
        .ok ("[2001:db8::1]", 8554) ∧
      ¬Survives plainCrate (requestTo "2001:db8::1") (liveParams (requestTo "2001:db8::1"))
        (buildVtmUrl plainCrate (requestTo "2001:db8::1")) := by
  have hipv6 : IsIpv6 "2001:db8::1" := by unfold IsIpv6; decide +kernel
  have hendpoint : endpoint plainCrate (buildVtmUrl plainCrate (requestTo "2001:db8::1")) =
      .ok ("[2001:db8::1]", 8554) := by
    have hbrackets : "[" ++ "2001:db8::1" ++ "]" = "[2001:db8::1]" := by decide
    have hparse : plainCrate.parse (buildVtmUrl plainCrate (requestTo "2001:db8::1")) = some {
        scheme := "ysproto"
        hostStr := some "[2001:db8::1]"
        port := some 8554
        query := some (queryParams plainCrate (requestTo "2001:db8::1")
          (liveParams (requestTo "2001:db8::1"))) } := by
      rw [← hbrackets, buildVtmUrl, show (requestTo "2001:db8::1").host = "2001:db8::1" from rfl,
        hostText_of_ipv6 hipv6]
      exact plainCrate_ipv6 hipv6 (by decide)
    rw [endpoint, hparse]
    rfl
  refine ⟨plainCrate_lawful, hipv6, hendpoint, fun h => ?_⟩
  have heq := h.endpoint_eq
  rw [hendpoint] at heq
  injection heq with hpair
  exact absurd (Prod.mk.inj hpair).1 (by decide)

end Vtm

end EzvizBridge
