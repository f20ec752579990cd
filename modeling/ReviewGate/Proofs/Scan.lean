import ReviewGate.Proofs.Pool
import ReviewGate.Scan

/-! Scans that workers share are those of one worker: neither their number nor their turns show. -/
namespace ReviewGate.Crew

theorem scanAll_eq (c : Crew) (rules : List Rule) (files : List ChangedFile) :
    c.scanAll rules files = files.map (scan rules) := by
  unfold scanAll
  split_ifs
  · rfl
  · exact Pool.share_eq_map _ _ _ _

theorem scanEach_eq (c : Crew) (rules : List Rule) (files : List ChangedFile) :
    c.scanEach rules files = ReviewGate.scanEach rules files := by
  have hzip : (files.map id).zip (files.map (scan rules)) = files.map fun f => (id f, scan rules f) :=
    List.zip_map'
  rw [List.map_id] at hzip
  rw [scanEach, scanAll_eq, hzip]
  rfl

theorem aggregate_eq (c : Crew) (rules : List Rule) (files : List ChangedFile) :
    c.aggregate rules files = ReviewGate.aggregate rules files := by
  rw [aggregate, scanEach_eq, ReviewGate.aggregate]

end ReviewGate.Crew
