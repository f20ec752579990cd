import ReviewGate.Forge.Comments
import ReviewGate.Proofs.Forge.Exchange

/-! Listing comments page by page. A listing is complete with the first accepted page that is not full. -/
namespace ReviewGate.Forge

theorem itemsOfPage_list (items : List Value) : itemsOfPage (.list items) = .ok items := by
  cases items <;> rfl

/-- The items of a page, if the reply holds one. -/
def pageOf? (r : Reply) : Option (List Value) :=
  r.json.toOption.bind fun v => (itemsOfPage v).toOption

/-- Whether sense can be made of what comes of a request: an accepted reply to a listing is a page, and
one to anything but a deletion is JSON. -/
structure IsReadable (q : Request) (o : Outcome) : Prop where
  legible : o.IsLegible
  page : ∀ r, o.accepted? = some r → q.method = "GET" → ∃ items, pageOf? r = some items
  json : ∀ r, o.accepted? = some r → q.method ≠ "DELETE" → ∃ v, r.json = .ok v

def AllReadable (exchange : List (Request × Outcome)) : Prop :=
  ∀ x ∈ exchange, IsReadable x.1 x.2

/-- The items of all pages, if the last one is there. -/
def listed : List (Request × Outcome) → Option (List Value)
  | [] => none
  | (_, o) :: more =>
    match o.accepted?.bind pageOf? with
    | none => none
    | some items => if items.length < pageSize then some items else (listed more).map (items ++ ·)

theorem listed_append {exchange : List (Request × Outcome)} {items : List Value}
    (h : listed exchange = some items) (more : List (Request × Outcome)) :
    listed (exchange ++ more) = some items := by
  induction exchange generalizing items with
  | nil => cases h
  | cons x exchange ih =>
    rw [List.cons_append, listed]
    rw [listed] at h
    rcases hpage : x.2.accepted?.bind pageOf? with _ | page
    · rw [hpage] at h
      cases h
    · simp only [hpage] at h ⊢
      split_ifs at h ⊢
      · exact h
      · obtain ⟨found, hfound, rfl⟩ := Option.map_eq_some_iff.mp h
        rw [ih hfound]
        rfl

/-- How a listing ends, by what came of its requests. -/
inductive ListEnds (exchange : List (Request × Outcome)) : Except Fault (List Value) → Prop
  | complete (items : List Value) (readable : AllReadable exchange) (found : listed exchange = some items) :
    ListEnds exchange (.ok items)
  | refused (e : Fault) (readable : AllReadable exchange) (found : listed exchange = none)
    (forge : e.isForge = true) : ListEnds exchange (.error e)
  | unreadable (e : Fault) (unreadable : ¬ AllReadable exchange) (other : e.isForge = false) :
    ListEnds exchange (.error e)

/-- A page of a listing. -/
def readPage (q : Request) : Job (List Value) := do
  let content ← ask q
  Job.use (itemsOfPage content)

/-- How the request for a page ends. -/
inductive PageEnds (q : Request) (s t : Runner) : Except Fault (List Value) → Prop
  | held (reset : Int) (wires : s.SameWires t) : PageEnds q s t (.error (.rateLimited reset))
  | accepted (items : List Value) (sent : s.Sends [q] t)
    (readable : IsReadable q (s.network.answer q).outcome)
    (page : (s.network.answer q).outcome.accepted?.bind pageOf? = some items) : PageEnds q s t (.ok items)
  | refused (e : Fault) (sent : s.Sends [q] t) (readable : IsReadable q (s.network.answer q).outcome)
    (reply : (s.network.answer q).outcome.accepted? = none) (forge : e.isForge = true) :
    PageEnds q s t (.error e)
  | unreadable (e : Fault) (sent : s.Sends [q] t)
    (unreadable : ¬ IsReadable q (s.network.answer q).outcome) (other : e.isForge = false) :
    PageEnds q s t (.error e)

/-- A refused request is readable whatever it was for. -/
theorem isReadable_of_refused {q : Request} {o : Outcome} (hlegible : o.IsLegible)
    (hreply : o.accepted? = none) : IsReadable q o :=
  ⟨hlegible, by simp [hreply], by simp [hreply]⟩

theorem readPage_ends {q : Request} (hq : q.method = "GET") {s t : Runner}
    {result : Except Fault (List Value)} (h : readPage q s = (result, t)) : PageEnds q s t result := by
  unfold readPage at h
  rcases hask : ask q s with ⟨answer, u⟩
  have hends := ask_ends hask
  rw [Action.bind_run, hask] at h
  cases hends with
  | held reset hlow hwires =>
    cases h
    exact .held reset hwires
  | accepted r v hsent hlegible hreply hjson =>
    simp only [Job.use_run] at h
    rcases hitems : itemsOfPage v with m | items
    · rw [hitems] at h
      cases h
      refine .unreadable _ hsent ?_ rfl
      intro hreadable
      obtain ⟨items, hpage⟩ := hreadable.page r hreply hq
      simp [pageOf?, hjson, hitems, Except.toOption] at hpage
    · rw [hitems] at h
      cases h
      have hpage : pageOf? r = some items := by simp [pageOf?, hjson, hitems, Except.toOption]
      refine .accepted items hsent ⟨hlegible, ?_, ?_⟩ (by simp [hreply, hpage])
      · intro r' hr' _
        rw [hreply] at hr'
        exact ⟨items, Option.some.inj hr' ▸ hpage⟩
      · intro r' hr' _
        rw [hreply] at hr'
        exact ⟨v, Option.some.inj hr' ▸ hjson⟩
  | refused e hsent hlegible hreply he =>
    cases h
    exact .refused e hsent (isReadable_of_refused hlegible hreply) hreply he
  | illegible e hsent hillegible he =>
    cases h
    refine .unreadable e hsent ?_ he
    intro hreadable
    rcases hillegible with hillegible | ⟨r, f, hreply, hjson⟩
    · exact hillegible hreadable.legible
    · obtain ⟨v, hv⟩ := hreadable.json r hreply (by rw [hq]; decide)
      rw [hjson] at hv
      cases hv

theorem commentsFrom_up (c : Client) (r : Repository) (issue : Value) (answer : Request → Answer)
    (next : Request → Network) (page : Nat) (s : Runner) :
    c.commentsFrom r issue (.up answer next) page s =
      (readPage (c.pageRequest r issue page) >>= fun items =>
        if items.length < pageSize then pure items
        else c.commentsFrom r issue (next (c.pageRequest r issue page)) (page + 1) >>= fun more =>
          pure (items ++ more)) s := by
  rw [Client.commentsFrom, readPage, ← Action.bind_assoc_run]

theorem allReadable_cons {q : Request} {o : Outcome} {exchange : List (Request × Outcome)} :
    AllReadable ((q, o) :: exchange) ↔ IsReadable q o ∧ AllReadable exchange := by
  simp [AllReadable]

theorem allReadable_append {exchange more : List (Request × Outcome)} :
    AllReadable (exchange ++ more) ↔ AllReadable exchange ∧ AllReadable more := by
  simp only [AllReadable, List.mem_append]
  exact ⟨fun h => ⟨fun x hx => h x (Or.inl hx), fun x hx => h x (Or.inr hx)⟩,
    fun h x hx => hx.elim (h.1 x) (h.2 x)⟩

/-- A listing ends with the first page that is not accepted. -/
theorem PageEnds.listEnds {q : Request} {s t : Runner} {e : Fault} (hq : q.method = "GET")
    (h : PageEnds q s t (.error e)) :
    ∃ qs, s.Sends qs t ∧ (∀ q ∈ qs, q.method = "GET") ∧ ListEnds (s.network.exchange qs) (.error e) := by
  cases h with
  | held reset hwires =>
    exact ⟨[], hwires.sends, by simp, .refused _ (by simp [Network.exchange, AllReadable]) rfl rfl⟩
  | refused _ hsent hreadable hreply he =>
    refine ⟨[q], hsent, by simpa using hq, .refused e ?_ ?_ he⟩
    · simpa [Network.exchange, AllReadable] using hreadable
    · simp [Network.exchange, listed, hreply]
  | unreadable _ hsent hunreadable he =>
    refine ⟨[q], hsent, by simpa using hq, .unreadable e ?_ he⟩
    simpa [Network.exchange, AllReadable] using hunreadable

/-- A page that is full is followed by the rest of the listing. -/
theorem ListEnds.cons {q : Request} {o : Outcome} {exchange : List (Request × Outcome)}
    {items : List Value} {result : Except Fault (List Value)} (hreadable : IsReadable q o)
    (hpage : o.accepted?.bind pageOf? = some items) (hfull : ¬ items.length < pageSize)
    (h : ListEnds exchange result) :
    ListEnds ((q, o) :: exchange) (result.map (items ++ ·)) := by
  have hlisted : listed ((q, o) :: exchange) = (listed exchange).map (items ++ ·) := by
    simp only [listed, hpage, if_neg hfull]
  cases h with
  | complete more hall hfound =>
    exact .complete _ (allReadable_cons.mpr ⟨hreadable, hall⟩) (by rw [hlisted, hfound]; rfl)
  | refused e hall hfound he =>
    exact .refused e (allReadable_cons.mpr ⟨hreadable, hall⟩) (by rw [hlisted, hfound]; rfl) he
  | unreadable e hall he =>
    exact .unreadable e (fun h => hall (allReadable_cons.mp h).2) he

/-- How a listing of comments ends. The induction is on what the network has left to answer. -/
theorem commentsFrom_ends (c : Client) (r : Repository) (issue : Value) (net : Network) :
    ∀ (page : Nat) {s t : Runner} {result : Except Fault (List Value)}, s.network = net →
      c.commentsFrom r issue net page s = (result, t) →
        ∃ qs, s.Sends qs t ∧ (∀ q ∈ qs, q.method = "GET") ∧ ListEnds (s.network.exchange qs) result := by
  induction net with
  | down =>
    intro page s t result hnet h
    have hends := readPage_ends (q := c.pageRequest r issue page) rfl h
    cases result with
    | error e => exact PageEnds.listEnds (q := c.pageRequest r issue page) rfl hends
    | ok items =>
      cases hends with
      | accepted _ _ _ hpage =>
        rw [hnet] at hpage
        cases hpage
  | up answer next ih =>
    intro page s t result hnet h
    rw [commentsFrom_up] at h
    rcases hpage : readPage (c.pageRequest r issue page) s with ⟨e | items, u⟩
    · have hends := readPage_ends (q := c.pageRequest r issue page) rfl hpage
      rw [Action.bind_run, hpage] at h
      cases h
      exact PageEnds.listEnds (q := c.pageRequest r issue page) rfl hends
    · have hends := readPage_ends rfl hpage
      rw [Action.bind_run, hpage] at h
      cases hends with
      | accepted _ hsent hreadable hitems =>
        dsimp only at h
        split_ifs at h with hshort
        · cases h
          refine ⟨_, hsent, by simp [Client.pageRequest], .complete items ?_ ?_⟩
          · simpa [Network.exchange, AllReadable] using hreadable
          · simp only [Network.exchange, listed, hitems, if_pos hshort]
        -- A full page: the rest of the listing comes from what is left of the network.
        · have hu : u.network = next (c.pageRequest r issue page) := by
            rw [hsent.network, hnet]
            rfl
          rcases hmore : c.commentsFrom r issue (next (c.pageRequest r issue page)) (page + 1) u with
            ⟨more, v⟩
          obtain ⟨qs, hqs, hget, hlist⟩ := ih _ (page + 1) hu hmore
          have hresult : (result, t) = (more.map (items ++ ·), v) := by
            rw [← h, Action.bind_run, hmore]
            cases more <;> rfl
          cases hresult
          refine ⟨_, hsent.trans hqs, ?_, ?_⟩
          · simpa [Client.pageRequest] using hget
          · rw [hsent.exchange]
            exact hlist.cons hreadable hitems hshort

/-- How listing all comments ends. -/
theorem comments_ends {c : Client} {r : Repository} {issue : Value} {s t : Runner}
    {result : Except Fault (List Value)} (h : c.comments r issue s = (result, t)) :
    ∃ qs, s.Sends qs t ∧ (∀ q ∈ qs, q.method = "GET") ∧ ListEnds (s.network.exchange qs) result := by
  rw [Client.comments, Action.bind_run, Action.get_run] at h
  exact commentsFrom_ends c r issue s.network 1 rfl h

end ReviewGate.Forge
