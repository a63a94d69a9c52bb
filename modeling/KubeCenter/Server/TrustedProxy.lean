import KubeCenter.Lib.Bytes
import Mathlib.Data.List.TakeWhile

/-! # The address a client is limited by

`server/middleware/trusted_proxy.go` in front of `ratelimit.go`. The leftmost entry of
X-Forwarded-For is taken for the client's, but proxies append on the right. An address is the text
`String` writes for it. -/
namespace KubeCenter.Server
open Lib List

/-- The functions of the `net` package. -/
structure Net where
  parseIP : Bytes → Option Bytes
  parseCIDR : Bytes → Option (Bytes → Bool)
  /-- The host of an address with a port. -/
  splitHostPort : Bytes → Option Bytes
  joinHostPort : Bytes → Bytes → Bytes

/-- What a port is written with: `SplitHostPort` refuses colons and brackets in it. -/
def PlainPort (port : Bytes) : Prop := ∀ b ∈ port, b ∉ ascii ":[]"

structure Net.Address (net : Net) (a : Bytes) : Prop where
  parses : net.parseIP a = some a
  bare : net.splitHostPort a = none
  peer : ∀ port, PlainPort port → net.splitHostPort (net.joinHostPort a port) = some a
  plain : byte ',' ∉ a ∧ byte '%' ∉ a
  trimmed : trimSpace a = a
  nonempty : a ≠ []

/-- The headers are empty where they are absent. -/
structure Request where
  remoteAddr : Bytes
  xRealIP : Bytes
  xForwardedFor : Bytes

section

variable (net : Net) (cidrs : List Bytes)

/-- What stands before the first comma. -/
def leftmost (header : Bytes) : Bytes := trimSpace (header.takeWhile (· ≠ byte ','))

def pickForwardedIP (r : Request) : Bytes :=
  let v := trimSpace r.xRealIP
  match if v ≠ [] then net.parseIP v else none with
  | some ip => ip
  | none => if r.xForwardedFor ≠ [] then (net.parseIP (leftmost r.xForwardedFor)).getD [] else []

def socketPeerIP (remoteAddr : Bytes) : Option Bytes :=
  net.parseIP (((net.splitHostPort remoteAddr).getD remoteAddr).takeWhile (· ≠ byte '%'))

def trustedNets : List (Bytes → Bool) :=
  ((cidrs.map trimSpace).filter (· ≠ [])).filterMap net.parseCIDR

def ipInAny (ip : Bytes) (nets : List (Bytes → Bool)) : Bool := nets.any (· ip)

def trustedProxy (r : Request) : Request :=
  let trusted := trustedNets net cidrs
  if trusted.length = 0 then r
  else
    match socketPeerIP net r.remoteAddr with
    | none => r
    | some peer =>
      if !ipInAny peer trusted then r
      else
        let forwarded := pickForwardedIP net r
        if forwarded ≠ [] then { r with remoteAddr := forwarded } else r

def extractIP (r : Request) : Bytes := (net.splitHostPort r.remoteAddr).getD r.remoteAddr

def limiterKey (r : Request) : Bytes := extractIP net (trustedProxy net cidrs r)

/-- A proxy appends the address of its peer. -/
def appendForwarded (header peer : Bytes) : Bytes :=
  if header = [] then peer else header ++ ascii ", " ++ peer

/-- A client's request as it arrives through proxies, `hops` and then the `last` one. -/
def arriving (client : Bytes) (hops : List Bytes) (last port header : Bytes) : Request where
  remoteAddr := net.joinHostPort last port
  xRealIP := []
  xForwardedFor := (client :: hops).foldl appendForwarded header

end

theorem leftmost_append {t : Bytes} (ht : t ≠ []) (a : Bytes) :
    leftmost (appendForwarded t a) = leftmost t ∧ appendForwarded t a ≠ [] := by
  have hcomma : (ascii ", " ++ a).takeWhile (· ≠ byte ',') = [] := rfl
  rw [leftmost, appendForwarded, if_neg ht, append_assoc, takeWhile_append, hcomma, append_nil]
  refine ⟨?_, by simp [ht]⟩
  split
  next hall => rw [leftmost, ( takeWhile_prefix _).eq_of_length hall]
  · rfl

theorem leftmost_foldl (hops : List Bytes) {t : Bytes} (ht : t ≠ []) :
    leftmost (hops.foldl appendForwarded t) = leftmost t ∧ hops.foldl appendForwarded t ≠ [] := by
  induction hops generalizing t with
  | nil => exact ⟨rfl, ht⟩
  | cons a hops ih =>
    obtain ⟨hl, hne⟩ := leftmost_append ht a
    exact ⟨(ih hne).1.trans hl, (ih hne).2⟩

variable {net : Net} {cidrs : List Bytes}

theorem Net.Address.leftmost {a : Bytes} (h : net.Address a) : leftmost a = a := by
  rw [Server.leftmost, takeWhile_eq_self_iff.mpr, h.trimmed]
  intro b hb
  refine decide_eq_true fun he => h.plain.1 ?_
  rwa [← he]

theorem Net.Address.socketPeerIP {a port : Bytes} (h : net.Address a) (hport : PlainPort port) :
    socketPeerIP net (net.joinHostPort a port) = some a := by
  rw [Server.socketPeerIP, h.peer port hport, Option.getD_some, takeWhile_eq_self_iff.mpr, h.parses]
  intro b hb
  refine decide_eq_true fun he => h.plain.2 ?_
  rwa [← he]

/-- The entry that decides: the client's own address where it sent nothing. -/
def firstEntry (client header : Bytes) : Bytes := if header = [] then client else leftmost header

theorem trustedProxy_eq_self {r : Request} (h : ∀ peer, socketPeerIP net r.remoteAddr = some peer →
    ipInAny peer (trustedNets net cidrs) = false) : trustedProxy net cidrs r = r := by
  simp only [trustedProxy]
  cases hp : socketPeerIP net r.remoteAddr with
  | none => simp
  | some peer => simp [h peer hp]

section Chain

variable (law : ∀ t a, net.parseIP t = some a → net.Address a)
  {client last : Bytes} (hops : List Bytes) (hc : net.Address client) (hl : net.Address last)
  (ht : ipInAny last (trustedNets net cidrs) = true)
include law hc hl ht

theorem limiterKey_arriving {port : Bytes} (hport : PlainPort port) (header : Bytes) :
    limiterKey net cidrs (arriving net client hops last port header) =
      (net.parseIP (firstEntry client header)).getD last := by
  have hfw : leftmost (arriving net client hops last port header).xForwardedFor =
        firstEntry client header ∧
      (arriving net client hops last port header).xForwardedFor ≠ [] := by
    rw [arriving, foldl_cons]
    by_cases hh : header = []
    · rw [appendForwarded, if_pos hh, firstEntry, if_pos hh]
      obtain ⟨hf, hne⟩ := leftmost_foldl hops hc.nonempty
      exact ⟨hf.trans hc.leftmost, hne⟩
    · obtain ⟨ha, hne⟩ := leftmost_append hh client
      obtain ⟨hf, hne⟩ := leftmost_foldl hops hne
      exact ⟨by rw [hf, ha, firstEntry, if_neg hh], hne⟩
  have hpick : pickForwardedIP net (arriving net client hops last port header) =
      (net.parseIP (firstEntry client header)).getD [] := by
    rw [pickForwardedIP, if_pos hfw.2, hfw.1]
    rfl
  have hnets : (trustedNets net cidrs).length ≠ 0 := by
    intro h0
    rw [length_eq_zero_iff.mp h0] at ht
    cases ht
  rw [limiterKey, trustedProxy, if_neg hnets, hpick]
  simp only [arriving, hl.socketPeerIP hport, ht]
  cases hp : net.parseIP (firstEntry client header) with
  | none => simp [extractIP, hl.peer port hport]
  | some a => simp [extractIP, (law _ a hp).nonempty, (law _ a hp).bare]

theorem limiterKey_eq_client_iff (hu : ipInAny client (trustedNets net cidrs) = false)
    {port : Bytes} (hport : PlainPort port) (header : Bytes) :
    limiterKey net cidrs (arriving net client hops last port header) = client ↔
      net.parseIP (firstEntry client header) = some client := by
  rw [limiterKey_arriving law hops hc hl ht hport]
  cases hp : net.parseIP (firstEntry client header) with
  | none =>
    refine iff_of_false ?_ nofun
    intro he
    rw [← he, Option.getD_none, ht] at hu
    cases hu
  | some a => rw [Option.getD_some, Option.some_inj]

omit hl ht in
/-- Two requests of a client have the client's own address as their key exactly when the leftmost
entry each sent is that address, or nothing was sent. Headers of another peer are not read. -/
theorem client_limited_by_own_address (hu : ipInAny client (trustedNets net cidrs) = false)
    (hl : ∀ p ∈ hops ++ [last], net.Address p ∧ ipInAny p (trustedNets net cidrs) = true)
    (port port' header header' : Bytes) (hport : PlainPort port) (hport' : PlainPort port') :
    (limiterKey net cidrs (arriving net client hops last port header) =
        limiterKey net cidrs (arriving net client hops last port' header') ∧
      limiterKey net cidrs (arriving net client hops last port header) = client ↔
      net.parseIP (firstEntry client header) = some client ∧
        net.parseIP (firstEntry client header') = some client) ∧
    ∀ r r' : Request, r.remoteAddr = r'.remoteAddr →
      (∀ peer, socketPeerIP net r.remoteAddr = some peer →
        ipInAny peer (trustedNets net cidrs) = false) →
      limiterKey net cidrs r = limiterKey net cidrs r' := by
  obtain ⟨hla, ht⟩ := hl last (by simp)
  have hiff := limiterKey_eq_client_iff law hops hc hla ht hu hport header
  have hiff' := limiterKey_eq_client_iff law hops hc hla ht hu hport' header'
  refine ⟨⟨fun h => ⟨hiff.mp h.2, hiff'.mp (h.1 ▸ h.2)⟩, fun h => ?_⟩, fun r r' hr hp => ?_⟩
  · have hown := hiff.mpr h.1
    exact ⟨hown.trans (hiff'.mpr h.2).symm, hown⟩
  · rw [limiterKey, limiterKey, trustedProxy_eq_self hp, trustedProxy_eq_self (hr ▸ hp), extractIP,
      extractIP, hr]

end Chain

private def visitor : Bytes := ascii "203.0.113.7"
private def victim : Bytes := ascii "198.51.100.9"
private def ingress : Bytes := ascii "10.0.0.1"

/-- The package on these addresses. -/
private def net4 : Net where
  parseIP t := if t ∈ [visitor, victim, ingress] then some t else none
  parseCIDR t := if t = ascii "10.0.0.0/8" then some (· = ingress) else none
  splitHostPort t :=
    if t.count (byte ':') = 1 then some (t.takeWhile (· ≠ byte ':')) else none
  joinHostPort a port := a ++ byte ':' :: port

private theorem net4_address : ∀ t a, net4.parseIP t = some a → net4.Address a := by
  intro t a h
  have ha : a ∈ [visitor, victim, ingress] := by
    simp only [net4] at h
    split at h
    next ht => rwa [← Option.some.inj h]
    · cases h
  have hall : ∀ a ∈ [visitor, victim, ingress], net4.parseIP a = some a ∧
      net4.splitHostPort a = none ∧ byte ':' ∉ a ∧ a.takeWhile (· ≠ byte ':') = a ∧
      (byte ',' ∉ a ∧ byte '%' ∉ a) ∧ trimSpace a = a ∧ a ≠ [] := by decide
  obtain ⟨hp, hb, hno, hw, hpl, htr, hne⟩ := hall a ha
  have hsep : ∀ port, (a ++ byte ':' :: port).takeWhile (· ≠ byte ':') = a := fun port => by
    rw [takeWhile_append, if_pos (by rw [hw])]
    simp
  refine ⟨hp, hb, fun port hport => ?_, hpl, htr, hne⟩
  have hcolon : (a ++ byte ':' :: port).count (byte ':') = 1 := by
    rw [count_append, count_cons_self, count_eq_zero.mpr hno,
      count_eq_zero.mpr fun h => hport _ h (by decide)]
  simp only [net4]
  rw [if_pos hcolon, hsep]

theorem client_limited_by_own_address_visitor :
    limiterKey net4 [ascii "10.0.0.0/8"] (arriving net4 visitor [] ingress (ascii "443") visitor) =
      visitor := by
  have hproxy : ∀ p ∈ [] ++ [ingress], net4.Address p ∧
      ipInAny p (trustedNets net4 [ascii "10.0.0.0/8"]) = true := by
    simpa using ⟨net4_address ingress _ rfl, by decide⟩
  have hport : PlainPort (ascii "443") := fun b hb => of_decide_eq_true
    (all_eq_true.mp (show (ascii "443").all (· ∉ ascii ":[]") = true by decide) b hb)
  have h := client_limited_by_own_address net4_address [] (net4_address visitor _ rfl) (by decide)
    hproxy (ascii "443") (ascii "443") visitor [] hport hport
  exact (h.1.mpr ⟨by decide, by decide⟩).2

/-- The client names another address and is limited by that one. -/
theorem client_chooses_limited_address :
    limiterKey net4 [ascii "10.0.0.0/8"] (arriving net4 visitor [] ingress (ascii "443") []) =
      visitor ∧
    limiterKey net4 [ascii "10.0.0.0/8"] (arriving net4 visitor [] ingress (ascii "443") victim) =
      victim := by
  decide

end KubeCenter.Server
