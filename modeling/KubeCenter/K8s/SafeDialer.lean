import KubeCenter.Lib.Bytes
import KubeCenter.Lib.Control

/-! # Which addresses a remote cluster is dialled at

`safe_dialer.go` and the checks of `cluster_router.go` it uses. A dial resolves its host anew: the
resolver may answer each lookup as it likes. -/
namespace KubeCenter.K8s
open Lib

/-- `net.IP`, as a parser or the resolver returns it. -/
structure IP where
  bytes : Bytes
  length_eq : bytes.length = 4 ∨ bytes.length = 16

/-- The library functions that the code calls. -/
structure Net where
  splitHostPort : String → Except String (String × String)
  parseIP : String → Option IP
  text : IP → String
  /-- `%q` of `fmt`. -/
  quote : String → String

/-! ## The checks -/

/-- `To4`: the four bytes of an IPv4 address in either form. -/
def to4 : Bytes → Option (UInt8 × UInt8 × UInt8 × UInt8)
  | [a, b, c, d] => some (a, b, c, d)
  | [0, 0, 0, 0, 0, 0, 0, 0, 0, 0, 0xff, 0xff, a, b, c, d] => some (a, b, c, d)
  | _ => none

/-- A test of `net.IP`: on the four bytes, or on the sixteen of another address. -/
def testIP (v4 : UInt8 × UInt8 × UInt8 × UInt8 → Bool) (v6 : Bytes → Bool) (ip : Bytes) : Bool :=
  match to4 ip with
  | some quad => v4 quad
  | none => v6 ip

def isLoopback : Bytes → Bool :=
  testIP (fun (a, _) => a = 127) fun ip => ip = List.replicate 15 0 ++ [1]

def isPrivate : Bytes → Bool :=
  testIP (fun (a, b, _) => a = 10 || (a = 172 && b &&& 0xf0 = 16) || (a = 192 && b = 168))
    fun ip => ip.length = 16 && ip.getD 0 0 &&& 0xfe = 0xfc

def isLinkLocalUnicast : Bytes → Bool :=
  testIP (fun (a, b, _) => a = 169 && b = 254)
    fun ip => ip.length = 16 && ip.getD 0 0 = 0xfe && ip.getD 1 0 &&& 0xc0 = 0x80

def isLinkLocalMulticast : Bytes → Bool :=
  testIP (fun (a, b, c, _) => a = 224 && b = 0 && c = 0)
    fun ip => ip.length = 16 && ip.getD 0 0 = 0xff && ip.getD 1 0 &&& 0x0f = 0x02

def isUnspecified : Bytes → Bool :=
  testIP (fun quad => quad = (0, 0, 0, 0)) fun ip => ip = List.replicate 16 0

/-- `cgnatNet.Contains`, with the mask 255.192.0.0. -/
def inCGNAT : Bytes → Bool := testIP (fun (a, b, _) => a = 100 && b &&& 0xc0 = 64) fun _ => false

section

variable (net : Net)

def checkIPNotPrivate (ip : IP) : Except String Unit :=
  if isLoopback ip.bytes then .error ("URL resolves to loopback address " ++ net.text ip)
  else if isPrivate ip.bytes then .error ("URL resolves to private address " ++ net.text ip)
  else if isLinkLocalUnicast ip.bytes || isLinkLocalMulticast ip.bytes then
    .error ("URL resolves to link-local/metadata address " ++ net.text ip)
  else if isUnspecified ip.bytes then
    .error ("URL resolves to unspecified address " ++ net.text ip)
  else if inCGNAT ip.bytes then .error ("URL resolves to CGNAT address " ++ net.text ip)
  else .ok ()

/-- What is handed to the base dialer: `net.JoinHostPort(ip.String(), port)`. -/
structure Dialled where
  ip : IP
  port : String

/-- `dialContextWith`, up to the connection. `answer` is the lookup's, should one be made. -/
def dialContextWith (check : IP → Except String Unit) (address : String)
    (answer : Except String (List IP)) : Except String Dialled := do
  let (host, port) ← (net.splitHostPort address).mapError
    fun err => "invalid dial address " ++ net.quote address ++ ": " ++ err
  match net.parseIP host with
  | some ip =>
    (check ip).mapError ("SSRF dial refused: " ++ ·)
    return ⟨ip, port⟩
  | none =>
    match ← answer.mapError ("SSRF dial DNS lookup failed for " ++ host ++ ": " ++ ·) with
    | [] => .error ("SSRF dial DNS returned no IPs for " ++ host)
    | first :: rest =>
      (first :: rest).forM fun ip =>
        (check ip).mapError ("SSRF dial refused for " ++ host ++ ": " ++ ·)
      return ⟨first, port⟩

def strictDialContext : String → Except String (List IP) → Except String Dialled :=
  dialContextWith net (checkIPNotPrivate net)

/-- The fields of `rest.Config` that say how a connection is made. -/
structure RESTConfig where
  dial : String → Except String (List IP) → Except String Dialled
  /-- A request's proxy, of which `directConnection` gives none. -/
  proxy : String → Option String

def newRemoteRESTConfig : RESTConfig where
  dial := strictDialContext net
  proxy _ := none

end

/-! ## The ranges -/

/-- Loopback, RFC 1918, link-local, unspecified and shared addresses of IPv4. -/
inductive Reserved4 : UInt8 → UInt8 → UInt8 → UInt8 → Prop
  | loopback (b c d) : Reserved4 127 b c d
  | private10 (b c d) : Reserved4 10 b c d
  | private172 {b} (c d) : 16 ≤ b → b ≤ 31 → Reserved4 172 b c d
  | private192 (c d) : Reserved4 192 168 c d
  | linkLocal (c d) : Reserved4 169 254 c d
  | multicast (d) : Reserved4 224 0 0 d
  | unspecified : Reserved4 0 0 0 0
  | shared {b} (c d) : 64 ≤ b → b ≤ 127 → Reserved4 100 b c d

/-- An address that must not be dialled, in each of its forms. -/
inductive Forbidden : Bytes → Prop
  | v4 {a b c d} : Reserved4 a b c d → Forbidden [a, b, c, d]
  | mapped {a b c d} : Reserved4 a b c d →
      Forbidden [0, 0, 0, 0, 0, 0, 0, 0, 0, 0, 0xff, 0xff, a, b, c, d]
  | loopback : Forbidden (List.replicate 15 0 ++ [1])
  | unspecified : Forbidden (List.replicate 16 0)
  | uniqueLocal {a rest} : rest.length = 15 → a = 0xfc ∨ a = 0xfd → Forbidden (a :: rest)
  | linkLocal {b rest} : rest.length = 14 → 0x80 ≤ b → b ≤ 0xbf → Forbidden (0xfe :: b :: rest)
  /-- The scope is the low half of the second byte. -/
  | multicast {b rest} : rest.length = 14 → b.toNat % 16 = 2 → Forbidden (0xff :: b :: rest)

theorem masks : ∀ b : UInt8, (16 ≤ b → b ≤ 31 → b &&& 0xf0 = 16) ∧
    (64 ≤ b → b ≤ 127 → b &&& 0xc0 = 64) ∧ (0x80 ≤ b → b ≤ 0xbf → b &&& 0xc0 = 0x80) ∧
      (b.toNat % 16 = 2 → b &&& 0x0f = 0x02) ∧ (b = 0xfc ∨ b = 0xfd → b &&& 0xfe = 0xfc) := by
  set_option maxRecDepth 4000 in decide

theorem testIP_v6 {v4 v6} {a : UInt8} {rest : Bytes} (ha : a ≠ 0) (hrs : rest.length = 15) :
    testIP v4 v6 (a :: rest) = v6 (a :: rest) := by
  have hno : to4 (a :: rest) = none := by
    unfold to4
    split <;> simp_all
  rw [testIP, hno]

variable {net : Net} {ip : IP}

theorem not_forbidden_of_check (h : checkIPNotPrivate net ip = .ok ()) : ¬Forbidden ip.bytes := by
  simp only [checkIPNotPrivate, ite_error_ok_iff, Bool.or_eq_true, not_or] at h
  obtain ⟨hlp, hpr, ⟨huni, hml⟩, hun, hsh, -⟩ := h
  intro hfr
  generalize ip.bytes = bytes at *
  cases hfr with
  | v4 hr | mapped hr =>
    cases hr with
    | loopback => exact hlp rfl
    | private10 | private192 => exact hpr rfl
    | private172 c d hlow hhg => exact hpr (by simp [isPrivate, testIP, to4, (masks _).1 hlow hhg])
    | linkLocal => exact huni rfl
    | multicast => exact hml rfl
    | unspecified => exact hun rfl
    | shared c d hlow hhg => exact hsh (by simp [inCGNAT, testIP, to4, (masks _).2.1 hlow hhg])
  | loopback => exact hlp rfl
  | unspecified => exact hun rfl
  | uniqueLocal hrs ha =>
    refine hpr ((testIP_v6 (by rcases ha with rfl | rfl <;> decide) hrs).trans ?_)
    simp [hrs, (masks _).2.2.2.2 ha]
  | linkLocal hrs hlow hhg =>
    refine huni ((testIP_v6 (by decide) (by simp [hrs])).trans ?_)
    simp [hrs, (masks _).2.2.1 hlow hhg]
  | multicast hrs hsc =>
    refine hml ((testIP_v6 (by decide) (by simp [hrs])).trans ?_)
    simp [hrs, (masks _).2.2.2.1 hsc]

/-- The addresses that a dial may go to: the literal, or what the lookup answered. -/
def candidates (net : Net) (address : String) (answer : Except String (List IP)) : List IP :=
  match net.splitHostPort address with
  | .error _ => []
  | .ok (host, _) =>
    match net.parseIP host with
    | some ip => [ip]
    | none => answer.toOption.getD []

theorem forM_check {check : IP → Except String Unit} {f : String → String} {ips : List IP}
    (h : ips.forM (fun ip => (check ip).mapError f) = .ok ()) : ∀ ip ∈ ips, check ip = .ok () := by
  induction ips with
  | nil => nofun
  | cons ip ips ih =>
    obtain ⟨hip, hips⟩ := bind_ok_iff.1 h
    exact List.forall_mem_cons.2 ⟨mapError_eq_ok.1 hip, ih hips⟩

/-- A dial goes to one of its candidates, all of which have passed the check. -/
theorem dialContextWith_spec {check : IP → Except String Unit} {address : String} {answer}
    {d : Dialled} (h : dialContextWith net check address answer = .ok d) :
    d.ip ∈ candidates net address answer ∧
      ∀ ip ∈ candidates net address answer, check ip = .ok () := by
  obtain ⟨⟨host, port⟩, hsp, hdi⟩ := except_bind_eq_ok.1 h
  simp only [candidates, mapError_eq_ok.1 hsp]
  dsimp only at hdi
  split at hdi
  next ip hip =>
    obtain ⟨⟨⟩, hch, hdn⟩ := except_bind_eq_ok.1 hdi
    cases hdn
    simpa [hip] using mapError_eq_ok.1 hch
  · obtain ⟨ips, han, hdi⟩ := except_bind_eq_ok.1 hdi
    simp only [mapError_eq_ok.1 han]
    split at hdi
    · cases hdi
    · obtain ⟨⟨⟩, hall, hdn⟩ := except_bind_eq_ok.1 hdi
      cases hdn
      exact ⟨List.mem_cons_self, forM_check hall⟩

/-- Whatever each lookup answers: no proxy is used, the base dialer is handed an address that
passed the check in this dial, which is none of the forbidden ones, and a dial with a forbidden
candidate fails. -/
theorem remote_dials_allowed (net : Net) (dials : List (String × Except String (List IP))) :
    let cfg := newRemoteRESTConfig net
    (∀ url, cfg.proxy url = none) ∧
    (∀ ip, checkIPNotPrivate net ip = .ok () → ¬Forbidden ip.bytes) ∧
    ∀ dial ∈ dials, (∀ d, cfg.dial dial.1 dial.2 = .ok d → d.ip ∈ candidates net dial.1 dial.2 ∧
        checkIPNotPrivate net d.ip = .ok () ∧ ¬Forbidden d.ip.bytes) ∧
      ((∃ ip ∈ candidates net dial.1 dial.2, Forbidden ip.bytes) →
        ∀ d, cfg.dial dial.1 dial.2 ≠ .ok d) := by
  refine ⟨fun _ => rfl, fun _ => not_forbidden_of_check, fun dial _ => ⟨fun d h => ?_, ?_⟩⟩
  · obtain ⟨hmem, hall⟩ := dialContextWith_spec h
    exact ⟨hmem, hall _ hmem, not_forbidden_of_check (hall _ hmem)⟩
  · rintro ⟨ip, hip, hfr⟩ d h
    exact not_forbidden_of_check ((dialContextWith_spec h).2 ip hip) hfr

/-- A host that is the metadata service on the second lookup, next to a public address. -/
theorem remote_dials_allowed_rebound :
    let net : Net := ⟨fun _ => .ok ("api.example", "443"), fun _ => none, fun _ => "", id⟩
    let good : IP := ⟨[8, 8, 8, 8], .inl rfl⟩
    let cfg := newRemoteRESTConfig net
    cfg.dial "api.example:443" (.ok [good]) = .ok ⟨good, "443"⟩ ∧ ∀ d, cfg.dial "api.example:443"
        (.ok [good, ⟨[169, 254, 169, 254], .inl rfl⟩]) ≠ .ok d := by
  intro net good cfg
  refine ⟨rfl, ?_⟩
  refine ((remote_dials_allowed net [(_, _)]).2.2 _ List.mem_cons_self).2 ?_
  exact ⟨_, List.mem_cons_of_mem _ List.mem_cons_self, .v4 (.linkLocal _ _)⟩

end KubeCenter.K8s
