import RestaurantOs.Async.Sequential

/-!
# Fetching a customer's URL

Each hop is a lookup of the URL's host and, if every address is public, one
request to the first of them. The network answers as it likes: other addresses
at each lookup, any status, headers and body. The log has what was done.
-/

namespace RestaurantOs.SafeUrlFetch

open Async Prog

inductive SafeFetchErrorCode
  | invalidProtocol | privateIp | tooManyRedirects | responseTooLarge | timeout | unsupportedContentType
  | dnsResolutionFailed | httpError
  deriving DecidableEq

inductive Err
  | safeFetch (message : String) (code : SafeFetchErrorCode)
  | network (message : String)
  deriving DecidableEq

structure SafeFetchResult where
  body : List UInt8
  contentType : String
  finalUrl : String
  deriving DecidableEq

structure SafeFetchOptions where
  allowedContentTypes : List String
  maxBytes : Nat
  maxRedirects : Nat
  timeoutMs : Nat
  deriving DecidableEq

structure Url where
  protocol : String
  hostname : String
  port : Option Nat := none
  pathname : String
  search : String := ""
  href : String
  deriving DecidableEq

/-- `new URL(input)` and `new URL(location, base)`. -/
structure UrlParser where
  parse : String → Option Url
  resolve : String → Url → Option Url

/-! ## Addresses -/

/-- `Number(s)` of a decimal numeral; `none` is not a number. -/
def toNumber (s : String) : Option Nat :=
  if s.toList.all Char.isDigit then some (s.toList.foldl (fun n c => 10 * n + (c.toNat - '0'.toNat)) 0) else none

/-- `s.split(sep).map(Number)[index]` as a 32-bit operand. -/
def octet (parts : List String) (index : Nat) : BitVec 32 :=
  BitVec.ofNat 32 (((parts[index]?).bind toNumber).getD 0)

def ipv4ToInt (ip : String) : BitVec 32 :=
  let parts := ip.splitOn "."
  octet parts 0 <<< 24 ||| octet parts 1 <<< 16 ||| octet parts 2 <<< 8 ||| octet parts 3

def inIpv4Cidr (ip cidr : String) : Bool :=
  match cidr.splitOn "/" with
  | rangeIp :: bitsStr :: _ =>
    let bits := (toNumber bitsStr).getD 0
    let mask : BitVec 32 := if bits = 0 then 0 else 0xffffffff#32 <<< (32 - bits)
    ipv4ToInt ip &&& mask == ipv4ToInt rangeIp &&& mask
  | _ => false

/-- Private, loopback, link-local (the cloud metadata endpoint), carrier-grade
NAT, documentation, benchmark, multicast, reserved and broadcast ranges. -/
def IPV4_BLOCKED_RANGES : List String :=
  ["0.0.0.0/8", "10.0.0.0/8", "100.64.0.0/10", "127.0.0.0/8", "169.254.0.0/16", "172.16.0.0/12", "192.0.0.0/24",
    "192.0.2.0/24", "192.168.0.0/16", "198.18.0.0/15", "198.51.100.0/24", "203.0.113.0/24", "224.0.0.0/4",
    "240.0.0.0/4", "255.255.255.255/32"]

def isPublicIpv4 (ip : String) : Bool := !IPV4_BLOCKED_RANGES.any (inIpv4Cidr ip)

def expand (part : String) : List String := if part = "" then [] else part.splitOn ":"

def expandEmbeddedV4 (groups : List String) : Option (List (String ⊕ Nat)) :=
  match groups.getLast? with
  | none => some []
  | some last =>
    if ¬ last.contains '.' then some (groups.map .inl)
    else
      match (last.splitOn ".").map toNumber with
      | [some a, some b, some c, some d] =>
        if a > 255 ∨ b > 255 ∨ c > 255 ∨ d > 255 then none
        else some (groups.dropLast.map .inl ++ [.inr (a * 256 + b), .inr (c * 256 + d)])
      | _ => none

def hexDigit (c : Char) : Option Nat :=
  if '0' ≤ c ∧ c ≤ '9' then some (c.toNat - '0'.toNat)
  else if 'a' ≤ c ∧ c ≤ 'f' then some (c.toNat - 'a'.toNat + 10)
  else if 'A' ≤ c ∧ c ≤ 'F' then some (c.toNat - 'A'.toNat + 10)
  else none

/-- `parseInt(g, 16)`: the digits that `g` starts with. -/
def parseHex (g : String) : Option Nat :=
  match (g.toList.map hexDigit).takeWhile Option.isSome with
  | [] => none
  | digits => some (digits.foldl (fun n d => 16 * n + d.getD 0) 0)

def groupBytes (group : String ⊕ Nat) : Option (List Nat) :=
  match group with
  | .inr n => some [n / 256, n % 256]
  | .inl g => do
    let n ← parseHex (if g = "" then "0" else g)
    if n > 0xffff then none else some [n / 256, n % 256]

def parseIpv6 (ip : String) : Option (List Nat) := do
  let halves := ((ip.splitOn "%").headD "").splitOn "::"
  match halves with
  | [all] => do
    let groups ← expandEmbeddedV4 (expand all)
    if groups.length ≠ 8 then none else (groups.mapM groupBytes).map List.flatten
  | [first, second] => do
    let head ← expandEmbeddedV4 (expand first)
    let tail ← expandEmbeddedV4 (expand second)
    if 8 < head.length + tail.length then none
    else
      let groups := head ++ List.replicate (8 - head.length - tail.length) (.inl "0") ++ tail
      (groups.mapM groupBytes).map List.flatten
  | _ => none

def isPublicIpv6 (ip : String) : Bool :=
  match parseIpv6 ip with
  | none => false
  | some bytes =>
    let isZero := fun start stop => ((bytes.take stop).drop start).all (· = 0)
    let byte := fun index => bytes.getD index 0
    if isZero 0 16 then false
    else if isZero 0 15 && byte 15 = 1 then false
    else if byte 0 &&& 0xfe = 0xfc then false
    else if byte 0 = 0xfe && byte 1 &&& 0xc0 = 0x80 then false
    else if byte 0 = 0xff then false
    else if byte 0 = 0x20 && byte 1 = 0x01 && byte 2 = 0x0d && byte 3 = 0xb8 then false
    else if isZero 0 10 && byte 10 = 0xff && byte 11 = 0xff then
      isPublicIpv4 s!"{byte 12}.{byte 13}.{byte 14}.{byte 15}"
    else true

def isPublicIp (address : String) (family : Nat) : Bool :=
  if family = 6 then isPublicIpv6 address else isPublicIpv4 address

/-! ## The network -/

structure LookupAddress where
  address : String
  family : Nat
  deriving DecidableEq

structure RequestOptions where
  host : String
  port : Nat
  path : String
  hostHeader : String
  servername : String
  deriving DecidableEq

inductive Location
  | one (location : String)
  | many (locations : List String)
  deriving DecidableEq

/-- What arrives after the headers. -/
inductive BodyEvent
  | data (chunk : List UInt8)
  | ended
  | failed (error : Err)
  deriving DecidableEq

structure Response where
  statusCode : Option Nat := none
  contentType : Option String := none
  location : Option Location := none
  body : List BodyEvent := []
  deriving DecidableEq

/-- `httpsRequest` opens the one connection of a hop. -/
inductive Op
  | lookup (hostname : String)
  | httpsRequest (url : Url) (options : RequestOptions)
  deriving DecidableEq

@[reducible] def Op.Resp : Op → Type
  | lookup _ => List LookupAddress
  | httpsRequest _ _ => Response

structure Answer where
  addresses : Except Err (List LookupAddress)
  response : Except Err Response

inductive Entry
  | looked (hostname : String) (addresses : Except Err (List LookupAddress))
  | opened (url : Url) (options : RequestOptions)

def Op.perform : (op : Op) → Answer → List Entry → Except Err op.Resp × List Entry
  | lookup hostname, a, log => (a.addresses, log ++ [.looked hostname a.addresses])
  | httpsRequest url options, a, log => (a.response, log ++ [.opened url options])

@[reducible] def store : Store Op Op.Resp Err (List Entry) Answer Empty where
  perform := Op.perform
  advance := fun e => nomatch e

abbrev Promise (α : Type) := Prog Op Op.Resp Err α

/-! ## One hop -/

/-- Rejects the host if any of its addresses is not public; the first one is
dialled. -/
def resolvePublicIp (hostname : String) : Promise String := do
  let lookup : Except Err (List LookupAddress) ← (Prog.call (Op.lookup hostname) : Promise (List LookupAddress)).attempt
  match lookup with
  | .error _ | .ok [] => .raise (.safeFetch s!"Could not resolve host \"{hostname}\"." .dnsResolutionFailed)
  | .ok (first :: rest) =>
    if (first :: rest).any fun a => !isPublicIp a.address a.family then
      .raise (.safeFetch s!"\"{hostname}\" resolves to a private or reserved address and cannot be fetched." .privateIp)
    else pure first.address

structure HopResult where
  status : Nat
  location : Option Location
  body : List UInt8
  contentType : String

def Url.requestOptions (url : Url) (resolvedIp : String) : RequestOptions where
  host := resolvedIp
  port := url.port.getD 443
  path := url.pathname ++ url.search
  hostHeader := url.hostname
  servername := url.hostname

/-- What `trim` takes off. -/
def isWhitespace (c : Char) : Bool :=
  [0x9, 0xa, 0xb, 0xc, 0xd, 0x20, 0xa0, 0x1680, 0x2028, 0x2029, 0x202f, 0x205f, 0x3000, 0xfeff].contains c.toNat ||
    0x2000 ≤ c.toNat && c.toNat ≤ 0x200a

def trim (s : List Char) : List Char := ((s.dropWhile isWhitespace).reverse.dropWhile isWhitespace).reverse

def mediaType (header : Option String) : String := .ofList (trim ((header.getD "").toList.takeWhile (· ≠ ';')))

def tooLarge (opts : SafeFetchOptions) : Err :=
  let megabytes := (2 * opts.maxBytes + 1024 * 1024) / (2 * (1024 * 1024))
  .safeFetch s!"The response exceeded the {megabytes}MB limit." .responseTooLarge

/-- The chunks as they arrive, of which `total` bytes are kept; when nothing more
arrives the timer aborts the request. -/
def readBody (opts : SafeFetchOptions) : Nat → List (List UInt8) → List BodyEvent → Except Err (List UInt8)
  | _, _, [] => .error (.safeFetch "The request timed out." .timeout)
  | total, chunks, .data chunk :: events =>
    if total + chunk.length > opts.maxBytes then .error (tooLarge opts)
    else readBody opts (total + chunk.length) (chunks ++ [chunk]) events
  | _, chunks, .ended :: _ => .ok chunks.flatten
  | _, _, .failed error :: _ => .error error

def fetchOneHop (url : Url) (resolvedIp : String) (opts : SafeFetchOptions) : Promise HopResult := do
  let res : Response ← .call (Op.httpsRequest url (url.requestOptions resolvedIp))
  let status := res.statusCode.getD 0
  let contentType := mediaType res.contentType
  if 300 ≤ status ∧ status < 400 then pure ⟨status, res.location, [], contentType⟩
  else if 200 ≤ status ∧ status < 300 ∧ ¬ opts.allowedContentTypes.contains contentType then
    let shown := if contentType = "" then "unknown" else contentType
    .raise (.safeFetch s!"This source's content type (\"{shown}\") isn't supported." .unsupportedContentType)
  else do
    let body ← .ofExcept (readBody opts 0 [] res.body)
    pure ⟨status, res.location, body, contentType⟩

/-! ## The redirect loop -/

/-- The loop's body from the hop with `redirects` left: `hop` is
`opts.maxRedirects - redirects`. -/
def fetchFrom (urls : UrlParser) (opts : SafeFetchOptions) (redirects : Nat) (current : Url) : Promise SafeFetchResult :=
  if current.protocol ≠ "https:" then .raise (.safeFetch "Only https:// URLs are supported." .invalidProtocol)
  else do
    let resolvedIp ← resolvePublicIp current.hostname
    let result ← fetchOneHop current resolvedIp opts
    if 300 ≤ result.status ∧ result.status < 400 then
      match redirects with
      | 0 => .raise (.safeFetch s!"Too many redirects (limit {opts.maxRedirects})." .tooManyRedirects)
      | redirects + 1 =>
        match result.location with
        | some (.one location) =>
          if location = "" then .raise (.safeFetch "The source redirected without a usable destination." .httpError)
          else
            match urls.resolve location current with
            | none => .raise (.safeFetch "The source redirected to an invalid URL." .httpError)
            | some next => fetchFrom urls opts redirects next
        | _ => .raise (.safeFetch "The source redirected without a usable destination." .httpError)
    else if result.status < 200 ∨ 300 ≤ result.status then
      .raise (.safeFetch s!"The source responded with an unexpected status ({result.status})." .httpError)
    else pure ⟨result.body, result.contentType, current.href⟩

def safeUrlFetch (urls : UrlParser) (inputUrl : String) (opts : SafeFetchOptions) : Promise SafeFetchResult :=
  match urls.parse inputUrl with
  | none => .raise (.safeFetch "That doesn't look like a valid URL." .invalidProtocol)
  | some url => fetchFrom urls opts opts.maxRedirects url

/-! ## What is done on the network -/

/-- The hops of a fetch: each one looks its host up, finds only public
addresses and opens one connection to one of them; the last one may stop at the
lookup. -/
inductive Hops : Nat → List Entry → Prop
  | none : Hops 0 []
  | refused (hostname : String) (result : Except Err (List LookupAddress)) : Hops 0 [.looked hostname result]
  | hop (url : Url) (addresses : List LookupAddress) (a : LookupAddress) (n : Nat) (rest : List Entry)
      (hProtocol : url.protocol = "https:") (hMem : a ∈ addresses)
      (hPublic : ∀ a ∈ addresses, isPublicIp a.address a.family = true) (hRest : Hops n rest) :
      Hops (n + 1) (.looked url.hostname (.ok addresses) :: .opened url (url.requestOptions a.address) :: rest)

def Entry.isConnection : Entry → Bool
  | opened _ _ => true
  | looked _ _ => false

/-- The connection goes over https to a public address that the lookup right
before it returned for the host. -/
def Vetted (before : List Entry) (url : Url) (options : RequestOptions) : Prop :=
  url.protocol = "https:" ∧ ∃ earlier addresses a, before = earlier ++ [.looked url.hostname (.ok addresses)] ∧
    a ∈ addresses ∧ isPublicIp a.address a.family = true ∧ options = url.requestOptions a.address

theorem Hops.connections {n : Nat} {log : List Entry} (h : Hops n log) : log.countP Entry.isConnection = n := by
  induction h with
  | none => rfl
  | refused hostname result => rfl
  | hop url addresses a n rest _ _ _ _ ih =>
    rw [List.countP_cons_of_neg (by simp [Entry.isConnection]), List.countP_cons_of_pos (by simp [Entry.isConnection]), ih]

theorem Hops.length_le {n : Nat} {log : List Entry} (h : Hops n log) : log.length ≤ 2 * n + 1 := by
  induction h with
  | none => exact Nat.zero_le _
  | refused hostname result => exact Nat.le_refl 1
  | hop url addresses a n rest _ _ _ _ ih =>
    simp only [List.length_cons]
    omega

theorem Hops.vetted {n : Nat} {log before after : List Entry} {url : Url} {options : RequestOptions} (h : Hops n log)
    (hLog : log = before ++ .opened url options :: after) : Vetted before url options := by
  induction h generalizing before with
  | none =>
    rw [eq_comm, List.append_eq_nil_iff] at hLog
    cases hLog.2
  | refused hostname result =>
    cases before with
    | nil => cases hLog
    | cons entry before => simp at hLog
  | hop current addresses a n rest hProtocol hMem hPublic hRest ih =>
    cases before with
    | nil => cases hLog
    | cons entry before =>
      rw [List.cons_append, List.cons.injEq] at hLog
      obtain ⟨rfl, hLog⟩ := hLog
      cases before with
      | nil =>
        cases hLog
        exact ⟨hProtocol, [], addresses, a, rfl, hMem, hPublic a hMem, rfl⟩
      | cons entry before =>
        rw [List.cons_append, List.cons.injEq] at hLog
        obtain ⟨rfl, hLog⟩ := hLog
        obtain ⟨hHttps, earlier, found, b, rfl, hVetted⟩ := ih hLog
        exact ⟨hHttps, _ :: _ :: earlier, found, b, rfl, hVetted⟩

theorem readBody_le {opts : SafeFetchOptions} {events : List BodyEvent} {total : Nat} {chunks : List (List UInt8)}
    {body : List UInt8} (hTotal : chunks.flatten.length = total) (hLe : total ≤ opts.maxBytes)
    (h : readBody opts total chunks events = .ok body) : body.length ≤ opts.maxBytes := by
  induction events generalizing total chunks with
  | nil => cases h
  | cons event events ih =>
    cases event with
    | data chunk =>
      rw [readBody] at h
      split at h
      · cases h
      · rename_i hFits
        apply ih ?_ (Nat.not_lt.mp hFits) h
        simp [← hTotal]
    | ended =>
      cases h
      exact hTotal ▸ hLe
    | failed error => cases h

section Fetching

variable {urls : UrlParser} {opts : SafeFetchOptions} {answers : Nat → Answer} {log : List Entry}

def Acceptable (opts : SafeFetchOptions) (result : Except Err SafeFetchResult) : Prop :=
  ∀ r, result = .ok r → r.body.length ≤ opts.maxBytes ∧ opts.allowedContentTypes.contains r.contentType = true

theorem resolvePublicIp_respond (hostname : String) :
    (∃ e result, (resolvePublicIp hostname).respond store answers log = (.error e, log ++ [.looked hostname result])) ∨
      ∃ addresses a, (resolvePublicIp hostname).respond store answers log =
        (.ok a.address, log ++ [.looked hostname (.ok addresses)]) ∧ a ∈ addresses ∧
          ∀ a ∈ addresses, isPublicIp a.address a.family = true := by
  have hRespond : (resolvePublicIp hostname).respond store answers log =
      (match (answers 0).addresses with
      | .error _ | .ok [] => .raise (.safeFetch s!"Could not resolve host \"{hostname}\"." .dnsResolutionFailed)
      | .ok (first :: rest) =>
        if (first :: rest).any fun a => !isPublicIp a.address a.family then
          .raise (.safeFetch s!"\"{hostname}\" resolves to a private or reserved address and cannot be fetched." .privateIp)
        else .ret first.address : Promise String).respond store (fun n => answers (n + 1))
          (log ++ [.looked hostname (answers 0).addresses]) := by
    rw [resolvePublicIp, call, Prog.attempt, bind_eq, Prog.bind, respond]
    simp only [Op.perform]
    cases (answers 0).addresses <;> rfl
  rw [hRespond]
  split
  · exact .inl ⟨_, _, rfl⟩
  · exact .inl ⟨_, _, rfl⟩
  · rename_i first rest hAddresses
    rw [hAddresses]
    split
    · exact .inl ⟨_, _, rfl⟩
    · rename_i hPublic
      refine .inr ⟨first :: rest, first, rfl, List.mem_cons_self, fun a ha => ?_⟩
      cases hAddress : isPublicIp a.address a.family with
      | true => rfl
      | false => exact absurd (List.any_eq_true.mpr ⟨a, ha, by simp [hAddress]⟩) hPublic

theorem fetchOneHop_respond (url : Url) (resolvedIp : String) :
    (∃ e, (fetchOneHop url resolvedIp opts).respond store answers log =
        (.error e, log ++ [.opened url (url.requestOptions resolvedIp)])) ∨
      ∃ result, (fetchOneHop url resolvedIp opts).respond store answers log =
        (.ok result, log ++ [.opened url (url.requestOptions resolvedIp)]) ∧
          (200 ≤ result.status → result.status < 300 →
            result.body.length ≤ opts.maxBytes ∧ opts.allowedContentTypes.contains result.contentType = true) := by
  rw [fetchOneHop, bind_eq, respond_call_bind]
  simp only [Op.perform]
  cases (answers 0).response with
  | error e => exact .inl ⟨e, rfl⟩
  | ok res =>
    dsimp only
    split
    · rename_i hRedirect
      refine .inr ⟨_, rfl, fun _ hLt => ?_⟩
      have hGe := hRedirect.1
      dsimp only at hLt
      omega
    · split
      · exact .inl ⟨_, rfl⟩
      · rename_i hAllowed
        cases hBody : readBody opts 0 [] res.body with
        | error e => exact .inl ⟨e, rfl⟩
        | ok body =>
          refine .inr ⟨_, rfl, fun hGe hLt => ?_⟩
          have hLe : body.length ≤ opts.maxBytes := @readBody_le opts res.body 0 [] body rfl (Nat.zero_le _) hBody
          exact ⟨hLe, Decidable.of_not_not fun hNot => hAllowed ⟨hGe, hLt, hNot⟩⟩

theorem hop_respond {current : Url} {next : HopResult → Promise SafeFetchResult} {k : Nat}
    (hProtocol : current.protocol = "https:")
    (hNext : ∀ (result : HopResult) (answers : Nat → Answer) (log : List Entry),
      (200 ≤ result.status → result.status < 300 →
        result.body.length ≤ opts.maxBytes ∧ opts.allowedContentTypes.contains result.contentType = true) →
      ∃ n hops r, (next result).respond store answers log = (r, log ++ hops) ∧ Hops n hops ∧ n ≤ k ∧ Acceptable opts r) :
    ∃ n hops r, ((resolvePublicIp current.hostname).bind fun resolvedIp =>
        (fetchOneHop current resolvedIp opts).bind next).respond store answers log = (r, log ++ hops) ∧
      Hops n hops ∧ n ≤ k + 1 ∧ Acceptable opts r := by
  obtain ⟨later, hBind⟩ := @respond_bind _ _ _ _ _ _ _ _ store log answers (resolvePublicIp current.hostname)
    fun resolvedIp => (fetchOneHop current resolvedIp opts).bind next
  rw [hBind]
  rcases @resolvePublicIp_respond answers log current.hostname with
    ⟨e, result, hLookup⟩ | ⟨addresses, a, hLookup, hMem, hPublic⟩
  · rw [hLookup]
    exact ⟨0, _, _, rfl, .refused _ _, Nat.zero_le _, by rintro r ⟨⟩⟩
  · rw [hLookup]
    dsimp only
    obtain ⟨rest, hBind⟩ := @respond_bind _ _ _ _ _ _ _ _ store (log ++ [.looked current.hostname (.ok addresses)]) later
      (fetchOneHop current a.address opts) next
    rw [hBind]
    rcases @fetchOneHop_respond opts later (log ++ [.looked current.hostname (.ok addresses)]) current a.address with
      ⟨e, hHop⟩ | ⟨result, hHop, hBody⟩
    · rw [hHop, List.append_assoc]
      exact ⟨1, _, _, rfl, .hop current addresses a 0 [] hProtocol hMem hPublic .none, Nat.le_add_left 1 k, by rintro r ⟨⟩⟩
    · rw [hHop]
      obtain ⟨n, hops, r, hRespond, hHops, hLe, hResult⟩ := hNext result rest
        (log ++ [.looked current.hostname (.ok addresses)] ++ [.opened current (current.requestOptions a.address)]) hBody
      refine ⟨n + 1, _, r, ?_, .hop current addresses a n hops hProtocol hMem hPublic hHops, Nat.succ_le_succ hLe, hResult⟩
      simp only [List.append_assoc] at hRespond ⊢
      exact hRespond

theorem raise_respond {e : Err} {k : Nat} :
    ∃ n hops r, (.raise e : Promise SafeFetchResult).respond store answers log = (r, log ++ hops) ∧ Hops n hops ∧ n ≤ k ∧
      Acceptable opts r :=
  ⟨0, [], .error e, by simp, .none, Nat.zero_le _, by rintro r ⟨⟩⟩

theorem finish_respond {current : Url} {result : HopResult} {k : Nat} (hBody : 200 ≤ result.status → result.status < 300 →
      result.body.length ≤ opts.maxBytes ∧ opts.allowedContentTypes.contains result.contentType = true) :
    ∃ n hops r, (if result.status < 200 ∨ 300 ≤ result.status then
        .raise (.safeFetch s!"The source responded with an unexpected status ({result.status})." .httpError)
      else pure ⟨result.body, result.contentType, current.href⟩ : Promise SafeFetchResult).respond store answers log =
        (r, log ++ hops) ∧ Hops n hops ∧ n ≤ k ∧ Acceptable opts r := by
  split
  · exact raise_respond
  · rename_i hStatus
    rw [not_or, Nat.not_lt, Nat.not_le] at hStatus
    refine ⟨0, [], _, by rw [List.append_nil]; rfl, .none, Nat.zero_le _, ?_⟩
    rintro r ⟨⟩
    exact hBody hStatus.1 hStatus.2

theorem fetchFrom_respond (redirects : Nat) (current : Url) :
    ∃ n hops result, (fetchFrom urls opts redirects current).respond store answers log = (result, log ++ hops) ∧
      Hops n hops ∧ n ≤ redirects + 1 ∧ Acceptable opts result := by
  induction redirects generalizing current answers log with
  | zero =>
    rw [fetchFrom]
    split
    · exact raise_respond
    · rename_i hProtocol
      apply hop_respond (not_not.mp hProtocol)
      intro result answers log hBody
      split
      · exact raise_respond
      · exact finish_respond hBody
  | succ redirects ih =>
    rw [fetchFrom]
    split
    · exact raise_respond
    · rename_i hProtocol
      apply hop_respond (not_not.mp hProtocol)
      intro result answers log hBody
      split
      · dsimp only
        split
        · split
          · exact raise_respond
          · split
            · exact raise_respond
            · exact ih _
        · exact raise_respond
      · exact finish_respond hBody

end Fetching

/-- Every connection of a fetch goes over https to a public address that the
lookup of its hop returned; there are at most `maxRedirects + 1` of them and one
lookup more; what is returned is within the limit and of an allowed type. -/
theorem safeUrlFetch_safe (urls : UrlParser) (opts : SafeFetchOptions) (inputUrl : String) (answers : Nat → Answer) :
    ∃ result log, (safeUrlFetch urls inputUrl opts).respond store answers [] = (result, log) ∧
      (∀ before after url options, log = before ++ .opened url options :: after → Vetted before url options) ∧
      log.countP Entry.isConnection ≤ opts.maxRedirects + 1 ∧ log.length ≤ 2 * (opts.maxRedirects + 1) + 1 ∧
      Acceptable opts result := by
  rw [safeUrlFetch]
  cases urls.parse inputUrl with
  | none => exact ⟨_, [], rfl, by simp, by simp, by simp, by rintro r ⟨⟩⟩
  | some url =>
    obtain ⟨n, hops, result, hRespond, hHops, hLe, hResult⟩ :=
      @fetchFrom_respond urls opts answers [] opts.maxRedirects url
    refine ⟨result, hops, hRespond, fun before after url options => hHops.vetted, ?_, ?_, hResult⟩
    · rw [hHops.connections]
      exact hLe
    · have hLength := hHops.length_le
      omega

end RestaurantOs.SafeUrlFetch
