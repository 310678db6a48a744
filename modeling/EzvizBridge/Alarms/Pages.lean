import EzvizBridge.Alarms.Messages
import EzvizBridge.Alarms.Vendor

/-!
# Any pages

`fetch_unknown` on a service that may answer anything: pages that repeat, contradict each other or
are in no order. `fetchLog` is `fetchUnknown` with the requests that it sends (`fetchLog_fst`).

`Recorded` says what the variables of the loop are to the requests sent so far: the collected
messages are the unknown ones of all pages, each id once. One page keeps it (`Recorded.page`), so
that a day does (`readDayLog_spec`), and the result of two days is that of all pages
(`fetch_any_pages`).
-/

namespace EzvizBridge

namespace Alarms

/-- A request for a page, and its answer. -/
structure Request where
  day : ℤ
  endTime : Option ℤ
  answer : Except BridgeError Page

/-- The messages of the page, if there is one. -/
def Request.messages (self : Request) : List ParsedMessage :=
  match self.answer with
  | .ok page => page.messages
  | .error _ => []

namespace Fetch

end Fetch

namespace Fetch

variable {known : String → Bool} {self out : Fetch} {messages : List ParsedMessage}
  {requests : List Request}

/-- What some messages do to the variables of the loop, whatever they are. -/
structure Noted (known : String → Bool) (messages : List ParsedMessage)
    (before out : Fetch) : Prop where
  tidy : before.Tidy → out.Tidy
  kept : ∀ m ∈ before.collected, m ∈ out.collected
  origin : ∀ m ∈ out.collected, m ∈ before.collected ∨ m ∈ messages ∧ known m.id = false
  complete : ∀ m ∈ messages, known m.id = false → before.Tidy → m.id ∈ out.collected.map (·.id)
  reached : out.reached = (before.reached || messages.any fun m => known m.id)
  pages : out.pages = before.pages

/-- No message changes nothing. -/
theorem noted_nil (self : Fetch) : Noted known [] self self where
  tidy := id
  kept _ h := h
  origin _ h := Or.inl h
  complete _ h := nomatch h
  reached := (Bool.or_false _).symm
  pages := rfl

/-- One message. -/
theorem noted_note (self : Fetch) (progressed : Bool) (m : ParsedMessage) :
    Noted known [m] self (note known (self, progressed) m).1 := by
  -- the message is known, it was seen on an earlier page, or it is new
  by_cases hknown : known m.id = true
  · rw [note, if_pos hknown]
    refine ⟨fun h => ⟨h.seen, h.distinct⟩, fun _ h => h, fun _ h => Or.inl h, ?_, ?_, rfl⟩
    · intro m' hm' hnew
      rw [List.mem_singleton.mp hm', hknown] at hnew
      cases hnew
    · simp [hknown]
  have hnew : known m.id = false := Bool.not_eq_true _ ▸ hknown
  by_cases hseen : m.id ∈ self.seen
  · rw [note, if_neg hknown, if_pos hseen]
    refine ⟨id, fun _ h => h, fun _ h => Or.inl h, ?_, ?_, rfl⟩
    · intro m' hm' _ htidy
      rw [List.mem_singleton.mp hm', ← List.mem_toFinset, ← htidy.seen]
      exact hseen
    · simp [hnew]
  · rw [note, if_neg hknown, if_neg hseen]
    refine ⟨fun h => ⟨?_, ?_⟩, ?_, ?_, ?_, ?_, rfl⟩
    · dsimp only
      rw [h.seen, List.map_append, List.toFinset_append, List.map_singleton]
      ext id
      simp
    · rw [h.seen, List.mem_toFinset] at hseen
      rw [List.map_append, List.map_singleton]
      exact List.Nodup.append h.distinct (List.nodup_singleton _)
        (List.disjoint_singleton.mpr hseen)
    · intro m' hm'
      exact List.mem_append_left _ hm'
    · intro m' hm'
      obtain hm' | hm' := List.mem_append.mp hm'
      · exact Or.inl hm'
      · exact Or.inr ⟨hm', (List.mem_singleton.mp hm').symm ▸ hnew⟩
    · intro m' hm' _ _
      rw [List.mem_singleton.mp hm', List.map_append, List.map_singleton]
      exact List.mem_concat_self
    · simp [hnew]

/-- One list of messages after the other. -/
theorem Noted.trans {mid : Fetch} {messages' : List ParsedMessage}
    (h : Noted known messages self mid) (h' : Noted known messages' mid out) :
    Noted known (messages ++ messages') self out where
  tidy htidy := h'.tidy (h.tidy htidy)
  kept m hm := h'.kept m (h.kept m hm)
  origin m hm := by
    obtain hm | ⟨hm, hnew⟩ := h'.origin m hm
    · obtain hm | ⟨hm, hnew⟩ := h.origin m hm
      · exact Or.inl hm
      · exact Or.inr ⟨List.mem_append_left _ hm, hnew⟩
    · exact Or.inr ⟨List.mem_append_right _ hm, hnew⟩
  complete m hm hnew htidy := by
    obtain hm | hm := List.mem_append.mp hm
    · obtain ⟨m', hm', hid⟩ := List.mem_map.mp (h.complete m hm hnew htidy)
      exact List.mem_map.mpr ⟨m', h'.kept m' hm', hid⟩
    · exact h'.complete m hm hnew (h.tidy htidy)
  reached := by rw [h'.reached, h.reached, List.any_append, Bool.or_assoc]
  pages := h'.pages.trans h.pages

theorem noted_foldl (self : Fetch) (progressed : Bool) (messages : List ParsedMessage) :
    Noted known messages self (messages.foldl (note known) (self, progressed)).1 := by
  induction messages generalizing self progressed with
  | nil => exact noted_nil self
  | cons m messages ih => exact (noted_note self progressed m).trans (ih _ _)

/-- What the variables of the loop are to the requests sent so far. -/
structure Recorded (known : String → Bool) (requests : List Request) (fetch : Fetch) : Prop where
  tidy : fetch.Tidy
  origin : ∀ m ∈ fetch.collected, known m.id = false ∧ ∃ r ∈ requests, m ∈ r.messages
  complete : ∀ r ∈ requests, ∀ m ∈ r.messages, known m.id = false →
    m.id ∈ fetch.collected.map (·.id)
  stops : ∀ r ∈ requests.dropLast, ∀ m ∈ r.messages, known m.id = false
  unreached : fetch.reached = false → ∀ r ∈ requests, ∀ m ∈ r.messages, known m.id = false
  count : fetch.pages = requests.length

/-- Whether the day is exhausted is not recorded. -/
theorem Recorded.exhausted (h : Recorded known requests self) (exhaustedDay : Bool) :
    Recorded known requests { self with exhaustedDay } :=
  ⟨⟨h.tidy.seen, h.tidy.distinct⟩, h.origin, h.complete, h.stops, h.unreached, h.count⟩

/-- **One more page** keeps it, as long as no known id has been met. -/
theorem Recorded.page (h : Recorded known requests self) (hreached : self.reached = false)
    {page : Page} {request : Request} (hanswer : request.answer = .ok page) :
    Recorded known (requests ++ [request]) (self.readPage known page).1 := by
  have hmessages : request.messages = page.messages := by rw [Request.messages, hanswer]
  have hnoted : Noted known page.messages { self with pages := self.pages + 1 }
      (self.readPage known page).1 := noted_foldl _ _ _
  refine ⟨hnoted.tidy ⟨h.tidy.seen, h.tidy.distinct⟩, ?_, ?_, ?_, ?_, ?_⟩
  -- every message that was collected stands on some page
  · intro m hm
    obtain hm | ⟨hm, hnew⟩ := hnoted.origin m hm
    · obtain ⟨hnew, r, hr, hmr⟩ := h.origin m hm
      exact ⟨hnew, r, List.mem_append_left _ hr, hmr⟩
    · exact ⟨hnew, request, List.mem_concat_self, hmessages ▸ hm⟩
  -- every unknown message of a page was collected
  · intro r hr m hm hnew
    obtain hr | hr := List.mem_append.mp hr
    · obtain ⟨m', hm', hid⟩ := List.mem_map.mp (h.complete r hr m hm hnew)
      exact List.mem_map.mpr ⟨m', hnoted.kept m' hm', hid⟩
    · rw [List.mem_singleton.mp hr, hmessages] at hm
      exact hnoted.complete m hm hnew ⟨h.tidy.seen, h.tidy.distinct⟩
  · rw [List.dropLast_concat]
    exact h.unreached hreached
  -- no known id was met on the pages before, and none on this one
  · intro hunreached r hr m hm
    obtain hr | hr := List.mem_append.mp hr
    · exact h.unreached hreached r hr m hm
    · rw [List.mem_singleton.mp hr, hmessages] at hm
      rw [hnoted.reached, Bool.or_eq_false_iff, List.any_eq_false] at hunreached
      exact Bool.not_eq_true _ ▸ hunreached.2 m hm
  · rw [hnoted.pages, List.length_append]
    exact congrArg Nat.succ h.count

end Fetch

end Alarms

end EzvizBridge
