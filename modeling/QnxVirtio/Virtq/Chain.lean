import QnxVirtio.Virtq.Descriptors
import QnxVirtio.Virtq.Device

/-!
# Linking and walking a chain

What `virtq_put_desc_chain` stores into the descriptor table, and what the walk
of `virtq_get_desc_chain` makes of such a table.
-/

namespace QnxVirtio

open Foundation

/-- The descriptor table after the stores of `linkChain`. -/
def linkDescs : UInt16 -> List UInt16 -> (UInt16 -> VirtqDesc) ->
    UInt16 -> VirtqDesc
  | last, [], desc => Function.update desc last { desc last with next := 0 }
  | prev, idx :: rest, desc =>
      linkDescs idx rest
        (Function.update desc prev { desc prev with
          next := idx
          flags := (desc prev).flags ||| VIRTQ_DESC_F_NEXT })

theorem linkChain_runs {ok : Env -> Prop} {rest : List UInt16} :
    forall {head : UInt16} {q q' : Queue} {u : Unit},
      Prog.Runs ok q (linkChain head rest) u q' ->
        q' = { q with vq := { q.vq with desc := linkDescs head rest q.vq.desc } } := by
  induction rest with
  | nil =>
      intro head q q' u hrun
      rcases Prog.runs_modify_iff.mp hrun with ⟨_, rfl⟩
      rfl
  | cons idx rest ih =>
      intro head q q' u hrun
      have hrest := setDesc_runs (setDesc_runs hrun)
      rw [ih hrest]
      simp only [Queue.updateDesc, linkDescs, Function.update_self,
        Function.update_idem]

theorem virtqPutDescChain_runs {ok : Env -> Prop} {head : UInt16}
    {rest : List UInt16} {q q' : Queue} {rc : Rc}
    (hrun : Prog.Runs ok q (virtqPutDescChain head rest) rc q') :
    (rc ≠ .EOK ∧
      q' = { q with vq := { q.vq with desc := linkDescs head rest q.vq.desc } }) ∨
    (rc = .EOK ∧
      q' = { q with
        vq := { q.vq.publish head with desc := linkDescs head rest q.vq.desc }
        published := q.published ++
          [{ head := head
             rest := rest
             context := (q.vq.descExtras head).context }] }) := by
  unfold virtqPutDescChain at hrun
  rcases Prog.runs_bind_iff.mp hrun with ⟨_, q1, hlink, hput⟩
  rw [linkChain_runs hlink] at hput
  rcases Prog.runs_action_iff.mp hput with ⟨e, _, hf⟩
  by_cases hlock : e.lock ≠ .EOK
  · rw [if_pos hlock] at hf
    cases hf
    exact Or.inl ⟨hlock, rfl⟩
  · rw [if_neg hlock] at hf
    cases hf
    exact Or.inr ⟨rfl, rfl⟩

/-!
## What the links change
-/

theorem linkDescs_of_notMem {rest : List UInt16} :
    forall {head : UInt16} {desc : UInt16 -> VirtqDesc} {idx : UInt16},
      idx ∉ head :: rest -> linkDescs head rest desc idx = desc idx := by
  induction rest with
  | nil =>
      intro head desc idx hidx
      exact Function.update_of_ne (List.ne_of_not_mem_cons hidx) ..
  | cons next rest ih =>
      intro head desc idx hidx
      unfold linkDescs
      rw [ih (List.not_mem_of_not_mem_cons hidx),
        Function.update_of_ne (List.ne_of_not_mem_cons hidx)]

/-- Everything of a descriptor that the links leave alone. -/
structure SameBuffer (d d' : VirtqDesc) : Prop where
  addr : d'.addr = d.addr
  len : d'.len = d.len
  write : d'.flags &&& VIRTQ_DESC_F_WRITE = d.flags &&& VIRTQ_DESC_F_WRITE

theorem SameBuffer.refl (d : VirtqDesc) : SameBuffer d d :=
  ⟨rfl, rfl, rfl⟩

theorem SameBuffer.trans {d d' d'' : VirtqDesc} (h : SameBuffer d d')
    (h' : SameBuffer d' d'') : SameBuffer d d'' :=
  ⟨h'.addr.trans h.addr, h'.len.trans h.len, h'.write.trans h.write⟩

theorem or_next_and_write (flags : UInt16) :
    (flags ||| VIRTQ_DESC_F_NEXT) &&& VIRTQ_DESC_F_WRITE =
      flags &&& VIRTQ_DESC_F_WRITE := by
  unfold VIRTQ_DESC_F_NEXT VIRTQ_DESC_F_WRITE
  apply UInt16.toNat_inj.mp
  simp only [UInt16.toNat_and, UInt16.toNat_or]
  rw [Nat.and_or_distrib_right]
  exact Nat.or_zero _

theorem sameBuffer_update {desc : UInt16 -> VirtqDesc} {idx : UInt16}
    {d : VirtqDesc} (h : SameBuffer (desc idx) d) (i : UInt16) :
    SameBuffer (desc i) (Function.update desc idx d i) := by
  by_cases hi : i = idx
  · subst hi
    rw [Function.update_self]
    exact h
  · rw [Function.update_of_ne hi]
    exact SameBuffer.refl _

theorem linkDescs_sameBuffer {rest : List UInt16} :
    forall (head : UInt16) (desc : UInt16 -> VirtqDesc) (idx : UInt16),
      SameBuffer (desc idx) (linkDescs head rest desc idx) := by
  induction rest with
  | nil =>
      intro head desc idx
      apply sameBuffer_update
      exact ⟨rfl, rfl, rfl⟩
  | cons next rest ih =>
      intro head desc idx
      have hset : SameBuffer (desc idx) (Function.update desc head { desc head with
          next := next
          flags := (desc head).flags ||| VIRTQ_DESC_F_NEXT } idx) := by
        apply sameBuffer_update
        exact ⟨rfl, rfl, or_next_and_write _⟩
      exact hset.trans (ih next _ idx)

/-!
## Linked chains
-/

/-- Each descriptor of the list but the last points to its successor. -/
def Linked (desc : UInt16 -> VirtqDesc) : List UInt16 -> Prop
  | idx :: next :: rest =>
      (desc idx).hasNext = true ∧ (desc idx).next = next ∧
        Linked desc (next :: rest)
  | _ => True

theorem Linked.congr {desc desc' : UInt16 -> VirtqDesc} {chain : List UInt16}
    (h : Linked desc chain) (hsame : forall idx, idx ∈ chain -> desc' idx = desc idx) :
    Linked desc' chain := by
  induction chain with
  | nil => trivial
  | cons idx rest ih =>
      cases rest with
      | nil => trivial
      | cons next rest =>
          rcases h with ⟨hflag, hnext, hrest⟩
          have hidx := hsame idx (List.mem_cons_self ..)
          refine ⟨?_, ?_, ih hrest fun i hi => hsame i (List.mem_cons_of_mem _ hi)⟩
          · rw [hidx]
            exact hflag
          · rw [hidx]
            exact hnext

theorem hasNext_or_next (d : VirtqDesc) (next : UInt16) :
    VirtqDesc.hasNext { d with
      next := next
      flags := d.flags ||| VIRTQ_DESC_F_NEXT } = true := by
  unfold VirtqDesc.hasNext
  simp only [bne_iff_ne, ne_eq]
  intro hzero
  have hnat := congrArg UInt16.toNat hzero
  simp only [UInt16.toNat_and, UInt16.toNat_or, VIRTQ_DESC_F_NEXT] at hnat
  rw [Nat.and_or_distrib_right] at hnat
  have hone : (1 : UInt16).toNat &&& (1 : UInt16).toNat = 1 := rfl
  rw [hone] at hnat
  have hle : 1 <= (d.flags.toNat &&& (1 : UInt16).toNat ||| 1) := Nat.right_le_or
  rw [hnat] at hle
  exact absurd hle (by decide)

/-- The stores of a put link a list without repetitions; the flags of its last
descriptor stay as they were. -/
theorem linkDescs_linked {rest : List UInt16} :
    forall (head : UInt16) (desc : UInt16 -> VirtqDesc), (head :: rest).Nodup ->
      Linked (linkDescs head rest desc) (head :: rest) ∧
        forall last, (head :: rest).getLast? = some last ->
          (linkDescs head rest desc last).flags = (desc last).flags := by
  induction rest with
  | nil =>
      intro head desc _
      refine ⟨trivial, ?_⟩
      intro last hlast
      cases hlast
      simp [linkDescs]
  | cons next rest ih =>
      intro head desc hnodup
      have hhead := (List.nodup_cons.mp hnodup).1
      unfold linkDescs
      rcases ih next (Function.update desc head { desc head with
          next := next
          flags := (desc head).flags ||| VIRTQ_DESC_F_NEXT })
        (List.nodup_cons.mp hnodup).2 with ⟨hlinked, hflags⟩
      constructor
      · refine ⟨?_, ?_, hlinked⟩
        · rw [linkDescs_of_notMem hhead, Function.update_self]
          exact hasNext_or_next _ _
        · rw [linkDescs_of_notMem hhead, Function.update_self]
      · intro last hlast
        rw [List.getLast?_cons_cons] at hlast
        have hne : last ≠ head := by
          rintro rfl
          exact hhead (List.mem_of_getLast? hlast)
        rw [hflags last hlast, Function.update_of_ne hne]

/-!
## The walk
-/

theorem chainWalk_linked {desc : UInt16 -> VirtqDesc} {rest : List UInt16} :
    forall {head : UInt16} {n : Nat}, Linked desc (head :: rest) ->
      (forall last, (head :: rest).getLast? = some last ->
        (desc last).hasNext = false) ->
      rest.length < n -> chainWalk desc n head = some (head :: rest) := by
  induction rest with
  | nil =>
      intro head n _ hend hn
      cases n with
      | zero => cases hn
      | succ n =>
          have hhead := hend head rfl
          simp [chainWalk, hhead]
  | cons next rest ih =>
      intro head n hlinked hend hn
      rcases hlinked with ⟨hflag, hnext, hrest⟩
      cases n with
      | zero => cases hn
      | succ n =>
          have hwalk := ih (n := n) hrest
            (fun last hlast => hend last (by rw [List.getLast?_cons_cons]; exact hlast))
            (Nat.lt_of_succ_lt_succ hn)
          simp [chainWalk, hflag, hnext, hwalk]

theorem chainWalk_last {desc : UInt16 -> VirtqDesc} :
    forall {n : Nat} {head last : UInt16} {chain : List UInt16},
      chainWalk desc n head = some chain -> chain.getLast? = some last ->
        (desc last).hasNext = false := by
  intro n
  induction n with
  | zero =>
      intro head last chain hwalk
      cases hwalk
  | succ n ih =>
      intro head last chain hwalk hlast
      unfold chainWalk at hwalk
      by_cases hflag : (desc head).hasNext = true
      · rw [if_pos hflag] at hwalk
        rcases Option.map_eq_some_iff.mp hwalk with ⟨rest, hrest, rfl⟩
        cases rest with
        | nil => cases chainWalk_head hrest
        | cons next rest =>
            rw [List.getLast?_cons_cons] at hlast
            exact ih hrest hlast
      · rw [if_neg hflag] at hwalk
        cases hwalk
        cases hlast
        simpa using hflag

end QnxVirtio
