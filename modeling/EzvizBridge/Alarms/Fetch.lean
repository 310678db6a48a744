import Mathlib.Data.List.Sort
import EzvizBridge.Alarms.Feed

/-!
# Reading the alarm list of a device

`fetch_unknown` (`alarms/fetch.rs`) asks EZVIZ for the alarms of one device, newest first and one
page after the other, until it meets one that is known. It reads the current day of the camera, and
in some cases the day before.

The answers of the service are an argument: they may depend on the request and on how many requests
came before it, and each of them may be an error. A day is its number since 1970; `api_date` only
renders it.
-/

namespace EzvizBridge

namespace Alarms

/-! ### Messages -/

/-- `PictureSource`. -/
structure PictureSource where
  url : String
  crypt : ℤ := 0
  checksum : Option String := none
  deriving DecidableEq, Repr

/-- `ParsedMessage`. `parse_message` makes an id that is a token out of any message. -/
structure ParsedMessage where
  record : AlarmRecord
  channel : Option ℕ := none
  timeMs : Option ℤ := none
  picture : Option PictureSource := none
  token : isToken record.id = true
  deriving DecidableEq

/-- The id of the record. -/
def ParsedMessage.id (self : ParsedMessage) : String := self.record.id

/-- The channel that a message counts for: no channel and channel 0 are channel 1. -/
def ParsedMessage.ownChannel (self : ParsedMessage) : ℕ :=
  (self.channel.filter fun value => 0 < value).getD 1

/-- What `parse_list` finds in an answer. -/
structure Page where
  messages : List ParsedMessage
  hasNext : Bool
  deriving DecidableEq

/-- The answers to the list requests for one device, by the number of requests before, the day, and
the `endTime` cursor. -/
abbrev ListAnswers := ℕ → ℤ → Option ℤ → Except BridgeError Page

/-! ### Days -/

def livePages : ℕ := 3

def primePages : ℕ := 1

/-- The seconds of a day. -/
def daySeconds : ℤ := 86400

/-- `Utc::now`, in seconds, and the offset of the time zone of the process at that time. -/
structure Clock where
  now : ℤ
  zone : ℤ := 0
  deriving DecidableEq, Repr

def localDay (offset : Option ℤ) (clock : Clock) : ℤ :=
  (clock.now + offset.getD clock.zone) / daySeconds

def localMidnight (day : ℤ) (offset : Option ℤ) (clock : Clock) : ℤ :=
  day * daySeconds - offset.getD clock.zone

/-! ### `fetch_unknown` -/

/-- `FetchResult`. -/
structure FetchResult where
  messages : List ParsedMessage
  truncated : Bool
  deriving DecidableEq

/-- The variables of `fetch_unknown`. -/
structure Fetch where
  collected : List ParsedMessage := []
  seen : Finset String := ∅
  pages : ℕ := 0
  reached : Bool := false
  exhaustedDay : Bool := false
  deriving DecidableEq

namespace Fetch

/-- One message of a page; the flag is `progressed`. -/
def note (known : String → Bool) : Fetch × Bool → ParsedMessage → Fetch × Bool
  | (self, progressed), message =>
    if known message.id then ({ self with reached := true }, progressed)
    else if message.id ∈ self.seen then (self, progressed)
    else
      ({ self with
          seen := insert message.id self.seen
          collected := self.collected ++ [message] }, true)

/-- A page has arrived. -/
def readPage (self : Fetch) (known : String → Bool) (page : Page) : Fetch × Bool :=
  page.messages.foldl (note known) ({ self with pages := self.pages + 1 }, false)

/-- The `while` loop over the pages of one day; the first argument is how many may still be read. -/
def readDay (list : ListAnswers) (known : String → Bool) (day : ℤ) :
    ℕ → Option ℤ → Fetch → Except BridgeError Fetch
  | 0, _, self => .ok self
  | pages + 1, endTime, self =>
    match list self.pages day endTime with
    | .error error => .error error
    | .ok page =>
      let lastTime := page.messages.getLast?.bind (·.timeMs)
      let (next, progressed) := self.readPage known page
      -- a known id ends the day, and so does a page without a time or without anything new
      if next.reached then .ok next
      else
        match lastTime with
        | some time =>
          if page.hasNext && progressed then readDay list known day pages (some time) next
          else .ok { next with exhaustedDay := !page.hasNext }
        | none => .ok { next with exhaustedDay := !page.hasNext }

/-- The second turn of the loop over the days. -/
def readsDayBefore (self : Fetch) (newestKnown : Option ℤ) (midnight : ℤ) (maxPages : ℕ) : Bool :=
  let gap := newestKnown.any fun known => known < midnight
  !(self.reached || maxPages ≤ self.pages || !self.exhaustedDay || !gap)

def truncated (self : Fetch) (maxPages : ℕ) : Bool :=
  !self.reached && !self.exhaustedDay && maxPages ≤ self.pages

/-- The messages by time and id. -/
def sorted (self : Fetch) : List ParsedMessage :=
  self.collected.insertionSort fun left right => left.record.key ≤ right.record.key

end Fetch

/-- `fetch_unknown`. -/
def fetchUnknown (list : ListAnswers) (clock : Clock) (offset newestKnown : Option ℤ)
    (known : String → Bool) (maxPages : ℕ) : Except BridgeError FetchResult := do
  let today := localDay offset clock
  let first ← Fetch.readDay list known today maxPages none {}
  let last ←
    if first.readsDayBefore newestKnown (localMidnight today offset clock) maxPages then
      Fetch.readDay list known (today - 1) (maxPages - first.pages) none
        { first with exhaustedDay := false }
    else .ok first
  return { messages := last.sorted, truncated := last.truncated maxPages }

end Alarms

end EzvizBridge
