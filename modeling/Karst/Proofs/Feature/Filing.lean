import Karst.Proofs.Feature.Recorded

namespace Karst

open Guarded

/-! ## First records -/

theorem eraseDupsBy_concat {α : Type} (r : α → α → Bool) (items : List α) (a : α) :
    (items ++ [a]).eraseDupsBy r = if (items.eraseDupsBy r).any (r a)
      then items.eraseDupsBy r else items.eraseDupsBy r ++ [a] := by
  -- what is kept grows from the back while the list is read
  have loop (kept : List α) : List.eraseDupsBy.loop r (items ++ [a]) kept =
      if (List.eraseDupsBy.loop r items kept).any (r a)
        then List.eraseDupsBy.loop r items kept
        else List.eraseDupsBy.loop r items kept ++ [a] := by
    induction items generalizing kept with
    | nil =>
      simp only [List.nil_append, List.eraseDupsBy.loop, List.any_reverse]
      cases kept.any (r a) <;> simp
    | cons b items ih =>
      rw [List.cons_append, List.eraseDupsBy.loop, List.eraseDupsBy.loop]
      by_cases repeated : kept.any (r b) = true
      · simpa only [repeated] using ih kept
      · rw [Bool.not_eq_true] at repeated
        simpa only [repeated] using ih (b :: kept)
  exact loop []

def firstRecords (made : List (LocalPos × Block)) : List (LocalPos × Block) :=
  made.eraseDupsBy fun later first => later.1 == first.1

variable {made : List (LocalPos × Block)} {p : LocalPos}

theorem firstRecords_concat (made : List (LocalPos × Block)) (w : LocalPos × Block) :
    firstRecords (made ++ [w]) = if w.1 ∈ (firstRecords made).map Prod.fst
      then firstRecords made else firstRecords made ++ [w] := by
  have among (kept : List (LocalPos × Block)) :
      kept.any (fun first => w.1 == first.1) = true ↔ w.1 ∈ kept.map Prod.fst := by
    rw [List.any_eq_true, List.mem_map]
    exact exists_congr fun first => and_congr_right fun _ => by rw [beq_iff_eq, eq_comm]
  rw [firstRecords, eraseDupsBy_concat]
  exact if_congr (among _) rfl rfl

theorem mem_map_firstRecords (made : List (LocalPos × Block)) (p : LocalPos) :
    p ∈ (firstRecords made).map Prod.fst ↔ p ∈ made.map Prod.fst := by
  induction made using List.reverseRecOn with
  | nil => rfl
  | append_singleton made w ih =>
    rw [firstRecords_concat, List.map_append, List.mem_append, List.map_singleton,
      List.mem_singleton, ← ih]
    split
    case isTrue older =>
      refine ⟨.inl, ?_⟩
      rintro (early | rfl)
      · exact early
      · exact older
    case isFalse =>
      simp only [List.map_append, List.mem_append, List.map_singleton, List.mem_singleton]

theorem OpBucket.contains_eq {b : OpBucket} (size : b.words.size = wordCount) (inside : p.Inside) :
    b.contains p = .ok (b.isTaken p) := by
  have bound : p.index / wordBits < b.words.size := size ▸ inside.word_lt
  simp [contains, isTaken, entry, bound]

/-! ## Runs -/

/-- A bucket, and every record made in it since it was last emptied. -/
structure Filing where
  bucket : OpBucket
  made : List (LocalPos × Block)

inductive BucketCall where
  | fresh
  | clone (k : Nat)
  | record (k : Nat) (p : { p : LocalPos // p.Inside }) (block : Block)
  | recycle (k : Nat)

namespace Filing

def fresh : Filing := ⟨.empty, []⟩

def record (f : Filing) (p : LocalPos) (block : Block) : Guarded Filing := do
  let (_, bucket) ← f.bucket.record p block
  return ⟨bucket, f.made ++ [(p, block)]⟩

def recycle (f : Filing) : Filing := ⟨f.bucket.recycle, []⟩

def call (filings : List Filing) : BucketCall → Guarded (List Filing)
  | .fresh => return filings ++ [fresh]
  | .clone k => return filings ++ filings[k]?.toList
  | .record k p block => editAt filings k fun f => f.record p block
  | .recycle k => editAt filings k fun f => return f.recycle

def after (history : List BucketCall) : Guarded (List Filing) := history.foldlM call []

/-- The bucket files just the first records. Nothing is left in the words of a bucket without
writes, which is why emptying it need not wipe them. -/
structure Faithful (f : Filing) : Prop where
  sound : f.bucket.Sound
  files : f.bucket.Files (firstRecords f.made)
  vacant : f.bucket.ops = #[] → f.bucket = .empty

theorem faithful_fresh : fresh.Faithful :=
  ⟨OpBucket.sound_empty, OpBucket.files_empty, fun _ => rfl⟩

theorem Faithful.recycle_eq {f : Filing} (faithful : f.Faithful) :
    f.bucket.recycle = .empty := by
  by_cases vacant : f.bucket.ops = #[]
  · rw [faithful.vacant vacant]
    rfl
  · exact OpBucket.recycle_eq_empty vacant

theorem Faithful.recycle {f : Filing} (faithful : f.Faithful) : f.recycle.Faithful := by
  rw [Filing.recycle, faithful.recycle_eq]
  exact faithful_fresh

theorem Faithful.isTaken_iff {f : Filing} (faithful : f.Faithful) (inside : p.Inside) :
    f.bucket.isTaken p ↔ p ∈ f.made.map Prod.fst := by
  rw [faithful.files.marks p inside, mem_map_firstRecords]

theorem Faithful.answer {f : Filing} (faithful : f.Faithful) (inside : p.Inside) (block : Block) :
    ∃ bucket, f.bucket.record p block = .ok (decide (p ∉ f.made.map Prod.fst), bucket) ∧
      Faithful ⟨bucket, f.made ++ [(p, block)]⟩ := by
  have marked := faithful.isTaken_iff inside
  obtain ⟨sound, files, vacant⟩ := faithful
  cases taken : f.bucket.isTaken p with
  | true =>
    have older := marked.1 taken
    rw [decide_eq_false (not_not_intro older)]
    refine ⟨f.bucket, by simp [OpBucket.record, inside, taken], sound, ?_, vacant⟩
    rwa [firstRecords_concat, if_pos ((mem_map_firstRecords ..).2 older)]
  | false =>
    have new : p ∉ f.made.map Prod.fst := by
      rw [← marked, taken]
      exact Bool.false_ne_true
    rw [decide_eq_true new]
    refine ⟨_, OpBucket.record_of_free inside taken block, sound.push inside taken block, ?_, ?_⟩
    · rw [firstRecords_concat, if_neg (mt (mem_map_firstRecords ..).1 new)]
      exact files.push inside block
    · intro unfilled
      simp [OpBucket.push_ops] at unfilled

theorem Faithful.record {f : Filing} (faithful : f.Faithful) (inside : p.Inside) (block : Block) :
    ∃ next, f.record p block = .ok next ∧ next.Faithful := by
  obtain ⟨bucket, done, kept⟩ := faithful.answer inside block
  exact ⟨_, by rw [Filing.record, done]; rfl, kept⟩

theorem exists_call {filings : List Filing} (faithful : ∀ f ∈ filings, f.Faithful)
    (made : BucketCall) : ∃ next, call filings made = .ok next ∧ ∀ f ∈ next, f.Faithful := by
  cases made with
  | fresh =>
    refine ⟨_, rfl, List.forall_mem_append.2 ⟨faithful, ?_⟩⟩
    simpa using faithful_fresh
  | clone k =>
    refine ⟨_, rfl, List.forall_mem_append.2 ⟨faithful, ?_⟩⟩
    intro f copied
    exact faithful f (List.mem_of_getElem? (Option.mem_toList.1 copied))
  | record k p block => exact exists_editAt faithful k fun f kept => kept.record p.2 block
  | recycle k => exact exists_editAt faithful k fun f kept => ⟨_, rfl, kept.recycle⟩

theorem exists_after (history : List BucketCall) :
    ∃ filings, after history = .ok filings ∧ ∀ f ∈ filings, f.Faithful := by
  refine exists_foldlM (fun f member => (List.not_mem_nil member).elim) ?_
  intro made _ filings faithful
  exact exists_call faithful made

/-- The bucket holds the first of the records `made` at each position, has the bits of these
positions set and answers by them; its bounds are the smallest box around what it holds, and emptied
it is a new bucket. -/
structure Represents (b : OpBucket) (made : List (LocalPos × Block)) : Prop where
  size : b.words.size = 64
  bits : ∀ p : LocalPos, p.Inside →
    ((b.words.getD (p.index / 64) 0).toNat.testBit (p.index % 64) ↔ ∃ op ∈ b.ops, op.pos = p)
  ops : b.ops.toList.map (fun op => (op.pos, op.block)) = firstRecords made
  apart : (b.ops.toList.map VoxelOp.pos).Nodup
  contains : ∀ p : LocalPos, p.Inside → b.contains p = .ok (decide (p ∈ made.map Prod.fst))
  record : ∀ (p : LocalPos) (block : Block), p.Inside →
    ∃ next, b.record p block = .ok (decide (p ∉ made.map Prod.fst), next)
  bounds : match b.localBounds with
    | some (lower, upper) => Spans {p | ∃ op ∈ b.ops, op.pos = p} lower upper
    | none => b.ops = #[]
  recycle : b.recycle = .empty

theorem Faithful.represents {f : Filing} (faithful : f.Faithful) : Represents f.bucket f.made := by
  have sound := faithful.sound
  refine ⟨sound.size, ?_, faithful.files.ops, sound.apart, ?_, ?_, ?_, faithful.recycle_eq⟩
  · intro p inside
    have marks := sound.marks p inside
    rwa [OpBucket.isTaken_eq_testBit] at marks
  · intro p inside
    rw [OpBucket.contains_eq sound.size inside]
    congr 1
    rw [Bool.eq_iff_iff, faithful.isTaken_iff inside, decide_eq_true_iff]
  · intro p block inside
    obtain ⟨next, done, _⟩ := faithful.answer inside block
    exact ⟨next, done⟩
  · rcases sound.localBounds_eq with ⟨absent, vacant⟩ | ⟨lower, upper, found, spans⟩
    · rw [absent]
      exact vacant
    · rw [found]
      exact spans

theorem buckets_after (history : List BucketCall) :
    ∃ filings, after history = .ok filings ∧ ∀ f ∈ filings, Represents f.bucket f.made := by
  obtain ⟨filings, run, faithful⟩ := exists_after history
  exact ⟨filings, run, fun f member => (faithful f member).represents⟩

example : (after [.fresh, .record 0 ⟨⟨4, 0, 9⟩, by decide⟩ .air, .clone 0, .recycle 1,
    .record 0 ⟨⟨4, 0, 9⟩, by decide⟩ .lava, .record 1 ⟨⟨4, 0, 9⟩, by decide⟩ .lava]).map
      (List.map fun f => f.bucket.ops) = .ok [#[⟨4, 0, 9, .air⟩], #[⟨4, 0, 9, .lava⟩]] := by
  decide +kernel

end Filing

end Karst
