import Futils.Core.Basic
import Mathlib.Data.List.Infix

/-!
# Cookies of a request

`CookieWriter` writes the stored cookies that belong to a request.  It looks for the domain of a
cookie anywhere in the host and for its path in front of the path, whatever stands next to the
match.  A cookie goes where it does not belong exactly if it is found off a label or a segment.
-/

namespace Futils.Http1

/-- `Cookie`, with its flags as fields.  A request is described by a cookie as well. -/
structure Cookie where
  name : List Char := []
  value : List Char := []
  path : List Char
  domain : List Char
  secure : Bool := false
  pathSet : Bool := false
  domainSet : Bool := false
  deriving DecidableEq

namespace CookieWriter

/-- `basic_string::find`: the first position at which the pattern begins. -/
def find (pattern text : List Char) : Option Nat := text.tails.findIdx? (pattern <+: ·)

def checkPathAndDomain (info cookie : Cookie) : Bool :=
  (if cookie.domainSet then find cookie.domain info.domain ≠ none
    else info.domain = cookie.domain) &&
  (if cookie.pathSet then find cookie.path info.path = some 0 else info.path = cookie.path)

/-- The loop of `write` in progress: what was written, for which cookies, and what stays stored. -/
structure State where
  towrite : List Char := []
  sent : List Cookie := []
  cookies : List Cookie := []
  deriving DecidableEq

/-- `name=value`, behind a separator if it is not the first one. -/
def append (towrite : List Char) (cookie : Cookie) : List Char :=
  (if towrite = [] then [] else towrite ++ [';', ' ']) ++ cookie.name ++ '=' :: cookie.value

section Loop

-- `check_expires` at the time of the call, and the request
variable (checkExpires : Cookie → Bool) (info : Cookie)

/-- One round of `write`; a cookie that is expired is erased. -/
def round (state : State) (cookie : Cookie) : State :=
  let kept := { state with cookies := state.cookies ++ [cookie] }
  if cookie.secure && !info.secure then kept
  else if !checkExpires cookie then state
  else if !checkPathAndDomain info cookie then kept
  else { kept with towrite := append state.towrite cookie, sent := state.sent ++ [cookie] }

/-- `write`; `dated` tells whether the request has a date. -/
def write (dated : Bool) (cookies : List Cookie) (towrite : List Char) : State × Bool :=
  if info.domain = [] ∨ info.path = [] ∨ dated = false then ({ towrite, cookies }, false)
  else
    let last := cookies.foldl (round checkExpires info) { towrite }
    (last, last.towrite ≠ [])

end Loop

/-- The host is the domain, or ends with a dot and the domain. -/
def DomainMatches (host domain : List Char) : Prop := host = domain ∨ '.' :: domain <:+ host
deriving Decidable

/-- The path is that of the cookie, or goes on behind it with a new segment. -/
def PathMatches (path cookiePath : List Char) : Prop :=
  path = cookiePath ∨
    cookiePath <+: path ∧ (cookiePath.getLast? = some '/' ∨ cookiePath ++ ['/'] <+: path)
deriving Decidable

/-- A cookie that may be sent with a request. -/
def Belongs (info cookie : Cookie) : Prop :=
  DomainMatches info.domain cookie.domain ∧ PathMatches info.path cookie.path
deriving Decidable

/-- A cookie that is not expired and may go over the connection of the request. -/
def Usable (checkExpires : Cookie → Bool) (info cookie : Cookie) : Prop :=
  (cookie.secure = true → info.secure = true) ∧ checkExpires cookie = true
deriving Decidable

/-- The domain stands in the host, and the path in front of the path. -/
def Found (info cookie : Cookie) : Prop :=
  (if cookie.domainSet then cookie.domain <:+: info.domain else info.domain = cookie.domain) ∧
    (if cookie.pathSet then cookie.path <+: info.path else info.path = cookie.path)
deriving Decidable

/-- The domain does not end the host, or does so behind something but a dot. -/
def OffLabel (host domain : List Char) : Prop :=
  domain <:+ host → (host.take (host.length - domain.length)).getLast?.any (· ≠ '.')
deriving Decidable

/-- The path goes on behind that of the cookie within a segment. -/
def OffSegment (path cookiePath : List Char) : Prop :=
  cookiePath.getLast? ≠ some '/' ∧ (path.drop cookiePath.length).head?.any (· ≠ '/')
deriving Decidable

/-- A cookie that is found by an attribute of its own, off a label or a segment. -/
def Strays (info cookie : Cookie) : Prop :=
  Found info cookie ∧ (cookie.domainSet = true ∧ OffLabel info.domain cookie.domain ∨
    cookie.pathSet = true ∧ OffSegment info.path cookie.path)
deriving Decidable

theorem find_ne_none {pattern text : List Char} : find pattern text ≠ none ↔ pattern <:+: text := by
  simp only [find, ne_eq, List.findIdx?_eq_none_iff, not_forall, List.mem_tails]
  constructor
  · rintro ⟨_, suffix, here⟩
    exact (List.IsPrefix.isInfix (by simpa using here)).trans suffix.isInfix
  · rintro ⟨front, rest, rfl⟩
    exact ⟨pattern ++ rest, ⟨front, by simp⟩, by simp⟩

theorem find_eq_zero {pattern text : List Char} : find pattern text = some 0 ↔ pattern <+: text := by
  cases text <;> simp [find, List.tails, List.findIdx?_cons]

theorem check_iff {info cookie : Cookie} :
    checkPathAndDomain info cookie = true ↔ Found info cookie := by
  rw [checkPathAndDomain, Bool.and_eq_true, Found]
  refine and_congr ?_ ?_
  · split <;> simp [find_ne_none]
  · split <;> simp [find_eq_zero]

theorem domainMatches_iff {host domain : List Char} :
    DomainMatches host domain ↔ ¬ OffLabel host domain := by
  by_cases suffix : domain <:+ host
  · obtain ⟨front, rfl⟩ := suffix
    have taken : (front ++ domain).take ((front ++ domain).length - domain.length) = front := by
      simp
    simp only [OffLabel, DomainMatches, taken, List.suffix_append, true_implies]
    obtain rfl | ⟨front, c, rfl⟩ := front.eq_nil_or_concat
    · simp
    · have behind : '.' :: domain <:+ front ++ c :: domain ↔ c = '.' := by
        refine ⟨fun ⟨other, eq⟩ => ?_, fun dot => ⟨front, by rw [dot]⟩⟩
        exact (List.cons.inj (List.append_inj' eq rfl).2).1.symm
      have longer : front ++ c :: domain ≠ domain := fun eq => by
        have lengths := congrArg List.length eq
        rw [List.length_append, List.length_cons] at lengths
        omega
      simp [behind, longer]
  · have unmatched : ¬ DomainMatches host domain := by
      rintro (rfl | dotted)
      · exact suffix List.suffix_rfl
      · exact suffix ((List.suffix_cons _ _).trans dotted)
    simp [OffLabel, suffix, unmatched]

theorem pathMatches_iff {path cookiePath : List Char} (front : cookiePath <+: path) :
    PathMatches path cookiePath ↔ ¬ OffSegment path cookiePath := by
  obtain ⟨rest, rfl⟩ := front
  cases rest with
  | nil => simp [PathMatches, OffSegment]
  | cons c rest =>
    simp [PathMatches, OffSegment, List.prefix_append_right_inj, Classical.or_iff_not_imp_left,
      @eq_comm _ '/']

theorem belongs_iff {info cookie : Cookie} (found : Found info cookie) :
    Belongs info cookie ↔ ¬ Strays info cookie := by
  have matching : (cookie.pathSet = false → PathMatches info.path cookie.path) ∧
      (cookie.domainSet = false → DomainMatches info.domain cookie.domain) :=
    ⟨fun unset => .inl (by simpa [unset] using found.2),
      fun unset => .inl (by simpa [unset] using found.1)⟩
  have front : cookie.path <+: info.path := by
    have path := found.2
    split at path
    · exact path
    · rw [path]
  rw [Belongs, Strays, and_iff_right found, domainMatches_iff, pathMatches_iff front] at *
  cases domain : cookie.domainSet <;> cases path : cookie.pathSet <;> simp_all

variable {checkExpires : Cookie → Bool} {info : Cookie}

theorem sent_foldl (cookies : List Cookie) (state : State) :
    (cookies.foldl (round checkExpires info) state).sent = state.sent ++
      cookies.filter fun cookie => Usable checkExpires info cookie ∧ Found info cookie := by
  induction cookies generalizing state with
  | nil => simp
  | cons cookie cookies ih =>
    have one : (round checkExpires info state cookie).sent = state.sent ++
        [cookie].filter fun cookie => Usable checkExpires info cookie ∧ Found info cookie := by
      rw [round]
      split
      · simp_all [Usable]
      split
      · simp_all [Usable]
      split
      · simp_all [← check_iff]
      · simp_all [Usable, ← check_iff, List.filter_cons]
    rw [List.foldl_cons, ih, one, List.append_assoc, ← List.filter_append, List.singleton_append]

/-- Cookies are sent only where they belong exactly if no cookie that is usable strays. -/
theorem sent_where_belongs (cookies : List Cookie) (dated : Bool) (towrite : List Char) :
    (∀ cookie ∈ (write checkExpires info dated cookies towrite).1.sent,
        cookie ∈ cookies ∧ Belongs info cookie) ↔
      (info.domain ≠ [] → info.path ≠ [] → dated = true →
        ∀ cookie ∈ cookies, Usable checkExpires info cookie → ¬ Strays info cookie) := by
  rw [write]
  split
  case isTrue refused =>
    simp only [List.not_mem_nil, false_implies, implies_true, true_iff]
    grind
  case isFalse asked =>
    simp only [not_or] at asked
    simp only [sent_foldl, List.nil_append, List.mem_filter, decide_eq_true_eq]
    constructor
    · intro belong _ _ _ cookie member usable strays
      exact (belongs_iff strays.1).1 (belong cookie ⟨member, usable, strays.1⟩).2 strays
    · rintro stay cookie ⟨member, usable, found⟩
      exact ⟨member, (belongs_iff found).2
        (stay asked.1 asked.2.1 (by simpa using asked.2.2) cookie member usable)⟩

/-- A host below the domain and a path below the path of the cookie. -/
theorem sent_to_subdomain :
    let info : Cookie := { domain := "www.example.com".toList, path := "/docs/web".toList }
    let cookie : Cookie :=
      { name := ['a'], value := ['1'], domain := "example.com".toList, path := "/docs".toList,
        domainSet := true, pathSet := true }
    (write (fun _ => true) info true [cookie] []).1.sent = [cookie] ∧ Belongs info cookie := by
  intro info cookie
  have sent : (write (fun _ => true) info true [cookie] []).1.sent = [cookie] := by decide +kernel
  have stays : ¬ Strays info cookie := by decide +kernel
  have belong := (@sent_where_belongs (fun _ => true) info [cookie] true []).2 (by simp [stays])
  exact ⟨sent, (belong _ (by rw [sent]; simp)).2⟩

/-- A cookie of `example.com` is sent to `badexample.com`. -/
theorem sent_to_stranger :
    let info : Cookie := { domain := "badexample.com".toList, path := ['/'] }
    let cookie : Cookie :=
      { name := ['a'], value := ['1'], domain := "example.com".toList, path := ['/'],
        domainSet := true }
    cookie ∈ (write (fun _ => true) info true [cookie] []).1.sent ∧ ¬ Belongs info cookie := by
  decide +kernel

end CookieWriter

end Futils.Http1
