/-
**Counters.**

What is counted while requests are answered and chains are rebuilt, and the page that shows it.

* `Tally.record`: count one event; `Tally.count_record`: nothing else changes;
* `Tally.page`: the counters in the text format that monitoring reads.
-/

import Gatehouse.Text.Split

namespace Gatehouse

/-- Something that is counted. -/
inductive Event where
  /-- Credentials were tried with a domain. -/
  | attempt (domain : String) (success : Bool)
  /-- A client was asked for credentials for a domain. -/
  | challenge (domain : String)
  /-- No domain accepted a request. -/
  | rejection
  /-- A request was granted the anonymous identity. -/
  | anonymousGrant
  /-- A request was authenticated by a session. -/
  | sessionHit
  /-- A chain was rebuilt. -/
  | rebuild (success : Bool)
  /-- A request failed for a reason of the given kind. -/
  | failure (kind : String)
deriving DecidableEq, Repr

namespace Event

def counter : Event → String
  | attempt _ _ => "authgate_auth_attempts_total"
  | challenge _ => "authgate_auth_challenges_total"
  | rejection => "authgate_auth_rejections_total"
  | anonymousGrant => "authgate_anonymous_grants_total"
  | sessionHit => "authgate_session_hits_total"
  | rebuild _ => "authgate_chain_rebuilds_total"
  | failure _ => "authgate_errors_total"

/-- What a counter means. -/
def meaning : Event → String
  | attempt _ _ => "Authentication attempts per domain"
  | challenge _ => "Requests answered with a re-authentication challenge"
  | rejection => "Requests rejected after every domain was exhausted"
  | anonymousGrant => "Requests granted the anonymous identity"
  | sessionHit => "Requests authenticated by an existing session"
  | rebuild _ => "Authentication chain rebuilds"
  | failure _ => "Total errors"

/-- How a success or failure is labelled. -/
def status (success : Bool) : String := if success then "success" else "failure"

/-- The labels of an event, by name. -/
def labels : Event → List (String × String)
  | attempt domain success => [("domain", domain), ("status", status success)]
  | challenge domain => [("domain", domain)]
  | rebuild success => [("status", status success)]
  | failure kind => [("type", kind)]
  | rejection | anonymousGrant | sessionHit => []

def escapeChar : Char → List Char
  | '\\' => ['\\', '\\']
  | '\x22' => ['\\', '\x22']
  | '\n' => ['\\', 'n']
  | c => [c]

def labelText (label : String × String) : String :=
  label.1 ++ "=\"" ++ String.ofList (label.2.toList.flatMap escapeChar) ++ "\""

/-- The counter of an event with its labels. -/
def sample (event : Event) : String :=
  if event.labels.isEmpty then event.counter
  else event.counter ++ "\x7b" ++ ",".intercalate (event.labels.map labelText) ++ "\x7d"

end Event

/-- How often each event has been counted; an event appears once it has. -/
abbrev Tally := List (Event × Nat)

namespace Tally

def empty : Tally := []

/-- How often an event has been counted. -/
def count (event : Event) : Tally → Nat
  | [] => 0
  | (other, number) :: rest => if event = other then number else count event rest

def record (event : Event) : Tally → Tally
  | [] => [(event, 1)]
  | (other, number) :: rest =>
    if event = other then (other, number + 1) :: rest else (other, number) :: record event rest

/-- Counting an event adds one to it and nothing to any other. -/
theorem count_record (event other : Event) (tally : Tally) :
    count event (record other tally) =
      count event tally + if event = other then 1 else 0 := by
  induction tally with
  | nil => simp [record, count]
  | cons entry rest ih =>
    obtain ⟨key, number⟩ := entry
    simp only [record]
    split
    · next same =>
      subst same
      by_cases here : event = other <;> simp [count, here]
    · next different =>
      by_cases here : event = key
      · subst here
        simp [count, Ne.symm different]
      · simp [count, here, ih]

/-- The lines of a counter: what it means, its kind, and its samples in order. -/
def counterLines (tally : Tally) (event : Event) : List String :=
  let samples := (tally.filter fun entry => entry.1.counter = event.counter).mergeSort
    fun first second => first.1.sample ≤ second.1.sample
  ("# HELP " ++ event.counter ++ " " ++ event.meaning) ::
    ("# TYPE " ++ event.counter ++ " counter") ::
    samples.map fun entry => entry.1.sample ++ " " ++ toString entry.2

/-- One event for each counter that has counted, in the order of the counters' names. -/
def counters (tally : Tally) : List Event :=
  (tally.map (·.1)).foldl (fun chosen event =>
    if chosen.any fun other => other.counter = event.counter then chosen
    else chosen ++ [event]) []
    |>.mergeSort fun first second => first.counter ≤ second.counter

/-- The page of all counters. -/
def page (tally : Tally) : String :=
  String.join ((tally.counters.flatMap (counterLines tally)).map (· ++ "\n"))

/-- The content type of the page. -/
def contentType : String := "text/plain; version=0.0.4"

end Tally

end Gatehouse
