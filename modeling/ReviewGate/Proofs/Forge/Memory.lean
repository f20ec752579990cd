import Mathlib.Tactic.SplitIfs
import ReviewGate.Proofs.Forge.Host
import ReviewGate.Proofs.Json.RoundTrip

/-! A forge in memory, which holds comments and numbers new ones upwards. It does what it is asked to do as
long as the numbers are short enough to be read. -/
namespace ReviewGate.Forge

/-- Comments, and the number of the next one. -/
structure Shelf where
  comments : List Comment
  fresh : Int

/-- A comment as a reply shows it. -/
def Comment.shown (c : Comment) : Value :=
  .record [("id", .int c.id), ("body", .ofOption .str c.body)]

namespace Shelf

/-- The text that a request carries. -/
def textIn : Option Value → Option String
  | some (.map [(_, .str body)]) => some body
  | _ => none

/-- The comments on the page that a request is for. -/
def pageIn (comments : List Comment) : Option Value → List Comment
  | some (.map [(_, .int page), (_, .int size)]) =>
    (comments.drop ((page.toNat - 1) * size.toNat)).take size.toNat
  | _ => []

/-- What a reply holds: the page that is asked for, or nothing. -/
def content (x : Shelf) (q : Request) : Value :=
  .list ((pageIn x.comments q.params).map Comment.shown)

def reply (x : Shelf) (q : Request) : Reply :=
  .of 200 [] (Json.write (x.content q) ++ "\n")

def next (c : Client) (r : Repository) (x : Shelf) (q : Request) : Shelf :=
  if q.method = "GET" then x
  else if q.method = "POST" then ⟨x.comments ++ [⟨x.fresh, textIn q.json⟩], x.fresh + 1⟩
  else if q.method = "PATCH" then
    { x with comments := x.comments.map fun comment =>
        if (c.deletion r comment.id).url = q.url then { comment with body := textIn q.json } else comment }
  else
    { x with comments := x.comments.filter fun comment => (c.deletion r comment.id).url ≠ q.url }

/-- Numbers below this one can be read. -/
def limit : Int := 1000000

/-- Whether the comments have numbers of their own, and so many new ones can be added. -/
structure IsSound (room : Nat) (x : Shelf) : Prop where
  unique : (x.comments.map Comment.id).Nodup
  below : ∀ c ∈ x.comments, 0 ≤ c.id ∧ c.id < x.fresh
  start : 0 ≤ x.fresh
  room : x.fresh + room ≤ limit

end Shelf

/-- A forge in memory. -/
def Host.memory (c : Client) (r : Repository) : Host Shelf where
  comments := Shelf.comments
  answer x q := ⟨.reply (x.reply q), 0⟩
  next := Shelf.next c r

namespace Shelf

variable {c : Client} {r : Repository} {pull : Value} {n : Nat} {x : Shelf} {q : Request}

theorem isShort_of_lt {id : Int} (hid : 0 ≤ id) (hlimit : id < limit) : Number.IsShort id := by
  have hdigits : (Nat.toDigits 10 id.natAbs).length ≤ 6 := by
    rw [Nat.length_toDigits_le_iff (by omega) (by omega)]
    unfold limit at hlimit
    omega
  have hmany : 6 ≤ Number.digitLimit := by decide
  exact Nat.le_trans hdigits hmany

theorem IsSound.isShort (hx : x.IsSound n) {comment : Comment} (hheld : comment ∈ x.comments) :
    Number.IsShort comment.id := by
  have hbelow := hx.below comment hheld
  have hroom := hx.room
  exact isShort_of_lt hbelow.1 (by omega)

/-- The address of a comment tells its number. -/
theorem deletion_url_inj {id id' : Int} : (c.deletion r id).url = (c.deletion r id').url ↔ id = id' := by
  constructor
  · intro h
    have hlists := congrArg String.toList h
    simp only [Client.deletion, String.toList_append] at hlists
    exact Number.intText_injective (String.toList_injective (List.append_cancel_left hlists))
  · rintro rfl
    rfl

/-! ### What holds of the numbers goes on to hold -/

theorem map_id_map {f : Comment → Comment} (hf : ∀ d, (f d).id = d.id) (cs : List Comment) :
    (cs.map f).map Comment.id = cs.map Comment.id := by
  rw [List.map_map]
  exact List.map_congr_left fun d _ => hf d

theorem IsSound.next (hx : x.IsSound (n + 1)) (q : Request) : (Shelf.next c r x q).IsSound n := by
  have hstart := hx.start
  have hroom := hx.room
  have hless : x.fresh + n ≤ limit := by omega
  unfold Shelf.next
  split_ifs
  · exact ⟨hx.unique, hx.below, hstart, hless⟩
  · constructor
    · rw [List.map_append, List.nodup_append]
      refine ⟨hx.unique, by simp, ?_⟩
      intro id hid id' hid'
      obtain ⟨d, hd, rfl⟩ := List.mem_map.mp hid
      have hbelow := hx.below d hd
      have hfresh : id' = x.fresh := by simpa using hid'
      omega
    · intro d hd
      dsimp only
      rcases List.mem_append.mp hd with hheld | hnew
      · have hbelow := hx.below d hheld
        omega
      · have hfresh : d.id = x.fresh := by rw [List.mem_singleton.mp hnew]
        omega
    · dsimp only
      omega
    · dsimp only
      omega
  · constructor
    · rw [map_id_map fun d => by split_ifs <;> rfl]
      exact hx.unique
    · intro d hd
      obtain ⟨old, hold, rfl⟩ := List.mem_map.mp hd
      have hid : (if (c.deletion r old.id).url = q.url then { old with body := textIn q.json }
          else old).id = old.id := by
        split_ifs <;> rfl
      rw [hid]
      exact hx.below old hold
    · exact hstart
    · exact hless
  · exact ⟨hx.unique.sublist (List.filter_sublist.map Comment.id),
      fun d hd => hx.below d (List.mem_filter.mp hd).1, hstart, hless⟩

/-! ### What is asked for is done -/

theorem shown_isShownBy (comment : Comment) : comment.IsShownBy comment.shown := by
  constructor
  · rfl
  · rfl

theorem memory_accepts (x : Shelf) (q : Request) : (Host.memory c r).Accepts x q (x.reply q) := by
  have hnone : ∀ name, headerNumber (x.reply q) name = .ok none := fun name => rfl
  refine ⟨rfl, rfl, ⟨⟨none, hnone _⟩, none, hnone _, by simp⟩, ?_⟩
  intro n hn
  rw [hnone] at hn
  cases hn

theorem IsSound.json_reply (hx : x.IsSound n) (q : Request) : (x.reply q).json = .ok (x.content q) := by
  have hpage : ∀ d ∈ pageIn x.comments q.params, d ∈ x.comments := by
    intro d hd
    unfold pageIn at hd
    split at hd
    · exact List.mem_of_mem_drop (List.mem_of_mem_take hd)
    · cases hd
  have hplain : Json.IsPlain (x.content q) := by
    refine Json.arePlain_iff.mpr fun v hv => ?_
    obtain ⟨d, hd, rfl⟩ := List.mem_map.mp hv
    have hshort := hx.isShort (hpage d hd)
    cases hbody : d.body <;>
      simp [Comment.shown, Value.record, Value.ofOption, hbody, Json.IsPlain, Json.ArePlainEntries, hshort]
  simp only [Reply.json, reply, Reply.of, Json.read_write hplain (Json.Room.takes_endless _)]

theorem IsSound.servesIn (hx : x.IsSound n) : (Host.memory c r).ServesIn c r pull x where
  unique := hx.unique
  lists page size _ _ _ := by
    refine ⟨_, _, memory_accepts x _, hx.json_reply _, ?_, rfl⟩
    have hpage : pageIn x.comments (c.listing r pull page size).params =
        (x.comments.drop ((page - 1) * size)).take size := rfl
    rw [hpage, List.forall₂_map_right_iff]
    exact List.forall₂_same.mpr fun d _ => shown_isShownBy d
  deletes comment hheld := by
    refine ⟨_, memory_accepts x _, ?_⟩
    show (Shelf.next c r x (c.deletion r comment.id)).comments = _
    exact List.filter_congr fun d _ => decide_eq_decide.mpr (not_congr deletion_url_inj)
  changes comment hheld body := by
    refine ⟨_, _, memory_accepts x _, hx.json_reply _, ?_⟩
    refine List.map_congr_left fun d _ => ?_
    have hinj : (c.deletion r d.id).url = (c.change r comment.id body).url ↔ d.id = comment.id :=
      deletion_url_inj
    unfold Comment.edit
    simp only [hinj]
    rfl
  adds body := by
    refine ⟨_, _, x.fresh, memory_accepts x _, hx.json_reply _, ?_, rfl⟩
    intro hmem
    obtain ⟨d, hd, heq⟩ := List.mem_map.mp hmem
    have hbelow := hx.below d hd
    omega

/-- The forge in memory does what it is asked to do. -/
theorem IsSound.serves (hx : x.IsSound n) : (Host.memory c r).Serves c r pull n x := by
  induction n generalizing x with
  | zero => trivial
  | succ n ih => exact ⟨hx.servesIn, fun q => ih (hx.next q)⟩

end Shelf

end ReviewGate.Forge
