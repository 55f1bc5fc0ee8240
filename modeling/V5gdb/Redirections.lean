import V5gdb.Trampolines

/-!
Redirecting several functions.
The debugger redirects the function that tells the competition status, and a program may let
it redirect the functions for serial input and output too. Functions that lie apart can be
redirected one after another, in any order and again: each of them leads to the destination
that it was given last.
-/
namespace V5gdb

open ByteMemory LittleEndian

def site (target : Addr) : Addr := target &&& ~~~THUMB_BIT

def redirectAll (m : CodeMemory) (redirections : List (Addr × Addr)) : CodeMemory :=
  redirections.foldl (fun m r => redirectFunction m r.1 r.2) m

/-- The functions for serial output and input, in the order of their redirections. -/
structure SerialFunctions where
  writeBuffer : Addr
  writeChar : Addr
  readChar : Addr
  peekChar : Addr

/-- `sdk` are the functions that the program calls, and `user` those of the debugger. -/
def enableAutoMuxing (m : CodeMemory) (sdk user : SerialFunctions) : CodeMemory :=
  redirectAll m [(sdk.writeBuffer, user.writeBuffer), (sdk.writeChar, user.writeChar),
    (sdk.readChar, user.readChar), (sdk.peekChar, user.peekChar)]

def lastDestination (redirections : List (Addr × Addr)) (target : Addr) : Option Addr :=
  ((redirections.filter fun r => r.1 = target).map Prod.snd).getLast?

/-- The functions that are redirected do not overlap in their first 12 bytes. -/
def Separate (redirections : List (Addr × Addr)) : Prop :=
  ∀ r ∈ redirections, ∀ r' ∈ redirections, r.1 ≠ r'.1 → Disjoint (site r.1) 12 (site r'.1) 12

structure Redirected (m : CodeMemory) (target destination : Addr) : Prop where
  written : read m.data (site target) 12 =
    trampolineCode (target.getLsbD 0) ++ toLe 4 destination
  fresh : ∀ x, Within (site target) 8 x → m.FreshAt x

variable {m : CodeMemory} {target destination : Addr} {redirections : List (Addr × Addr)}

theorem length_trampoline (target destination : Addr) :
    (trampolineCode (target.getLsbD 0) ++ toLe 4 destination).length = 12 := by
  rw [List.length_append, length_trampolineCode, length_toLe]

theorem redirected_self (m : CodeMemory) (target destination : Addr) :
    Redirected (redirectFunction m target destination) target destination where
  written := by
    rw [redirectFunction_data, ← length_trampoline target destination]
    apply read_write_self
    rw [length_trampoline]
    omega
  fresh := fun _ hx => synced_redirectFunction hx

/-- Elsewhere the memory stays as it is, and what was up to date there. -/
theorem redirectFunction_elsewhere {x : Addr} (h : ¬Within (site target) 12 x) :
    (redirectFunction m target destination).data x = m.data x ∧
      (m.FreshAt x → (redirectFunction m target destination).FreshAt x) := by
  constructor
  · rw [redirectFunction_data]
    apply write_of_not_within
    rwa [length_trampoline]
  · intro hfresh
    have hcode : ¬Within (site target) (trampolineCode (target.getLsbD 0)).length x := by
      intro hin
      exact h (hin.mono (by rw [length_trampolineCode]; omega))
    have hslot : ¬Within (site target + 8) (toLe 4 destination).length x := by
      intro hin
      rw [length_toLe] at hin
      exact h (@Within.of_add _ (site target) x 8 4 12 (by omega) (by omega) hin)
    rw [redirectFunction_eq]
    apply CodeMemory.FreshAt.sync
    apply CodeMemory.FreshAt.sync
    show m.fetch x = write (write m.data (site target) _) (site target + 8) _ x
    rw [write_of_not_within _ hslot, write_of_not_within _ hcode]
    exact hfresh

/-- A function that is apart stays redirected. -/
theorem Redirected.keep (h : Redirected m target destination) {target' : Addr}
    (hapart : Disjoint (site target) 12 (site target') 12) (destination' : Addr) :
    Redirected (redirectFunction m target' destination') target destination where
  written := by
    rw [← h.written]
    apply read_congr (by omega)
    intro x hx
    exact (redirectFunction_elsewhere (hapart x hx)).1
  fresh := fun x hx =>
    (redirectFunction_elsewhere (hapart x (hx.mono (by omega)))).2 (h.fresh x hx)

/-- From the target on the CPU runs to the destination. -/
theorem Redirected.reaches (h : Redirected m target destination)
    (htarget : FunctionPointer target) (hdest : FunctionPointer destination) (s : Arm.State)
    (hmem : s.mem = m.data) (hpc : s.pc = site target) (hthumb : s.thumb = target.getLsbD 0) :
    ∃ n, s.run m.fetch n = some (arrive s destination) := by
  have hparts := h.written
  rw [read_append _ _ 8 4] at hparts
  obtain ⟨hcode, hslot⟩ := List.append_inj hparts (by rw [length_read, length_trampolineCode])
  have hfetched : Arm.HoldsCode m.fetch s.pc (trampolineCode s.thumb) := by
    rw [Arm.HoldsCode, length_trampolineCode, hthumb, ← hcode, hpc]
    exact read_congr (by omega) h.fresh
  have hword : loadWord s.mem (s.pc + 8) = destination := by
    rw [hmem, hpc, loadWord]
    exact (congrArg (fromLe 32) hslot).trans (fromLe_toLe _ (by omega))
  cases hbit : s.thumb with
  | false =>
    rw [hbit] at hfetched hthumb
    have hplace : site target = target := clear_of_even hthumb.symm
    have haligned : s.pc.toNat % 4 = 0 := by
      rw [hpc, hplace]
      exact htarget.aligned hthumb.symm
    exact ⟨2, run_arm_trampoline hbit haligned hfetched hword hdest⟩
  | true =>
    rw [hbit] at hfetched
    exact ⟨3, run_thumb_trampoline hbit hfetched hword hdest⟩

theorem redirectAll_snoc (m : CodeMemory) (redirections : List (Addr × Addr)) (r : Addr × Addr) :
    redirectAll m (redirections ++ [r]) =
      redirectFunction (redirectAll m redirections) r.1 r.2 := by
  unfold redirectAll
  rw [List.foldl_append, List.foldl_cons, List.foldl_nil]

theorem lastDestination_snoc (redirections : List (Addr × Addr)) (r : Addr × Addr)
    (target : Addr) :
    lastDestination (redirections ++ [r]) target =
      if r.1 = target then some r.2 else lastDestination redirections target := by
  unfold lastDestination
  rw [List.filter_append]
  split_ifs with htarget
  · rw [List.filter_cons_of_pos (by simpa using htarget), List.filter_nil, List.map_append,
      List.map_singleton, List.getLast?_concat]
  · rw [List.filter_cons_of_neg (by simpa using htarget), List.filter_nil, List.append_nil]

theorem lastDestination_mem (h : lastDestination redirections target = some destination) :
    (target, destination) ∈ redirections := by
  obtain ⟨⟨target', destination'⟩, hr, rfl⟩ :=
    List.mem_map.mp (List.mem_of_getLast? h)
  obtain ⟨hmem, htarget⟩ := List.mem_filter.mp hr
  obtain rfl : target' = target := by simpa using htarget
  exact hmem

theorem lastDestination_isSome {r : Addr × Addr} (h : r ∈ redirections) :
    (lastDestination redirections r.1).isSome := by
  unfold lastDestination
  rw [List.getLast?_isSome]
  exact List.ne_nil_of_mem (List.mem_map_of_mem (List.mem_filter.mpr ⟨h, by simp⟩))

/-- Every function that was redirected leads to its latest destination. -/
theorem redirected_of_separate (m : CodeMemory) (h : Separate redirections)
    (hlast : lastDestination redirections target = some destination) :
    Redirected (redirectAll m redirections) target destination := by
  induction redirections using List.reverseRecOn with
  | nil => cases hlast
  | append_singleton redirections r ih =>
    rw [lastDestination_snoc] at hlast
    rw [redirectAll_snoc]
    split_ifs at hlast with htarget
    · obtain rfl := Option.some.inj hlast
      rw [← htarget]
      exact redirected_self _ _ _
    · have hbefore : Separate redirections := fun r hr r' hr' =>
        h r (List.mem_append_left _ hr) r' (List.mem_append_left _ hr')
      have hmem := List.mem_append_left [r] (lastDestination_mem hlast)
      have hr : r ∈ redirections ++ [r] := List.mem_append_right _ (List.mem_singleton_self r)
      exact (ih hbefore hlast).keep (h _ hmem _ hr (Ne.symm htarget)) _

theorem redirectAll_elsewhere (m : CodeMemory) {x : Addr}
    (h : ∀ r ∈ redirections, ¬Within (site r.1) 12 x) :
    (redirectAll m redirections).data x = m.data x ∧
      (m.FreshAt x → (redirectAll m redirections).FreshAt x) := by
  induction redirections using List.reverseRecOn with
  | nil => exact ⟨rfl, id⟩
  | append_singleton redirections r ih =>
    rw [List.forall_mem_append] at h
    obtain ⟨hdata, hfresh⟩ := ih h.1
    have hr := h.2 r (List.mem_singleton_self r)
    rw [redirectAll_snoc]
    obtain ⟨hdata', hfresh'⟩ :=
      @redirectFunction_elsewhere (redirectAll m redirections) r.1 r.2 x hr
    exact ⟨hdata'.trans hdata, fun hx => hfresh' (hfresh hx)⟩

/-- Where a function is redirected the memory is known. -/
theorem Redirected.data_eq {m' : CodeMemory} (h : Redirected m target destination)
    (h' : Redirected m' target destination) {x : Addr} (hx : Within (site target) 12 x) :
    m.data x = m'.data x := by
  have hread := h.written.trans h'.written.symm
  have hbyte := congrArg (fun bs : List (BitVec 8) => bs[distance (site target) x]?) hread
  rw [getElem?_read _ _ hx, getElem?_read _ _ hx, add_distance] at hbyte
  exact Option.some.inj hbyte

theorem separate_of_lastDestination {redirections' : List (Addr × Addr)}
    (h : Separate redirections)
    (hsame : ∀ target,
      lastDestination redirections' target = lastDestination redirections target) :
    Separate redirections' := by
  have hmem : ∀ r ∈ redirections', ∃ r₀ ∈ redirections, r₀.1 = r.1 := by
    intro r hr
    obtain ⟨destination, hlast⟩ := Option.isSome_iff_exists.mp (lastDestination_isSome hr)
    rw [hsame] at hlast
    exact ⟨_, lastDestination_mem hlast, rfl⟩
  intro r hr r' hr' hne
  obtain ⟨r₀, hr₀, heq⟩ := hmem r hr
  obtain ⟨r₁, hr₁, heq'⟩ := hmem r' hr'
  rw [← heq, ← heq'] at hne ⊢
  exact h r₀ hr₀ r₁ hr₁ hne

/-- What is left in memory is decided by the latest destination of each function. -/
theorem redirectAll_data {redirections' : List (Addr × Addr)} (m : CodeMemory)
    (h : Separate redirections)
    (hsame : ∀ target,
      lastDestination redirections' target = lastDestination redirections target) :
    (redirectAll m redirections').data = (redirectAll m redirections).data := by
  have h' := separate_of_lastDestination h hsame
  funext x
  by_cases hin : ∃ r ∈ redirections, Within (site r.1) 12 x
  · obtain ⟨r, hr, hx⟩ := hin
    obtain ⟨destination, hlast⟩ := Option.isSome_iff_exists.mp (lastDestination_isSome hr)
    exact (redirected_of_separate m h' ((hsame r.1).trans hlast)).data_eq
      (redirected_of_separate m h hlast) hx
  · have hout : ∀ r ∈ redirections, ¬Within (site r.1) 12 x := fun r hr hx => hin ⟨r, hr, hx⟩
    have hout' : ∀ r ∈ redirections', ¬Within (site r.1) 12 x := by
      intro r hr
      obtain ⟨destination, hlast⟩ := Option.isSome_iff_exists.mp (lastDestination_isSome hr)
      rw [hsame] at hlast
      exact hout (r.1, destination) (lastDestination_mem hlast)
    rw [(redirectAll_elsewhere m hout').1, (redirectAll_elsewhere m hout).1]

/-- After any series of redirections of functions that lie apart, each function leads to the
destination that it was given last; the rest of the memory is as it was; and any other series
with the same latest destinations, such as this one in another order or twice, leaves the same
memory behind. -/
theorem redirections_compose (m : CodeMemory) (redirections : List (Addr × Addr))
    (hpointers : ∀ r ∈ redirections, FunctionPointer r.1 ∧ FunctionPointer r.2)
    (hseparate : Separate redirections) :
    (∀ target destination, lastDestination redirections target = some destination →
      ∀ s : Arm.State, s.mem = (redirectAll m redirections).data → s.pc = site target →
        s.thumb = target.getLsbD 0 →
        ∃ n, s.run (redirectAll m redirections).fetch n = some (arrive s destination)) ∧
    (∀ x, (∀ r ∈ redirections, ¬Within (site r.1) 12 x) →
      (redirectAll m redirections).data x = m.data x ∧
        (m.FreshAt x → (redirectAll m redirections).FreshAt x)) ∧
    ∀ redirections', (∀ target,
      lastDestination redirections' target = lastDestination redirections target) →
        (redirectAll m redirections').data = (redirectAll m redirections).data := by
  refine ⟨?_, fun x hx => redirectAll_elsewhere m hx, fun _ => redirectAll_data m hseparate⟩
  intro target destination hlast s hmem hpc hthumb
  obtain ⟨htarget, hdest⟩ := hpointers _ (lastDestination_mem hlast)
  exact (redirected_of_separate m hseparate hlast).reaches htarget hdest s hmem hpc hthumb

theorem separate_of_pairwise {redirections : List (Addr × Addr)}
    (h : redirections.Pairwise fun r r' => Disjoint (site r.1) 12 (site r'.1) 12) :
    Separate redirections := by
  let apart (r r' : Addr × Addr) : Prop := r.1 ≠ r'.1 → Disjoint (site r.1) 12 (site r'.1) 12
  have hself : ∀ r ∈ redirections, apart r r := fun _ _ hne => absurd rfl hne
  have hforward : redirections.Pairwise apart := by
    apply h.imp
    intro r r' hdisjoint _
    exact hdisjoint
  have hback : redirections.Pairwise (flip apart) := by
    apply h.imp
    intro r r' hdisjoint _
    exact hdisjoint.symm
  exact hforward.forall_of_forall_of_flip hself hback

/-- The functions for serial output and input are redirected, two of them in Thumb code. -/
theorem redirections_compose_serial :
    ∃ m', m' = enableAutoMuxing ⟨fun _ => 0, fun _ => 0⟩
        ⟨0x03800000, 0x03800101, 0x03800200, 0x03800301⟩
        ⟨0x03901000, 0x03901100, 0x03901201, 0x03901300⟩ ∧
      ∀ s : Arm.State, s.mem = m'.data → s.pc = 0x03800100 → s.thumb = true →
        ∃ n, s.run m'.fetch n = some (arrive s 0x03901100) := by
  have hpointers : ∀ r ∈ ([(0x03800000, 0x03901000), (0x03800101, 0x03901100),
      (0x03800200, 0x03901201), (0x03800301, 0x03901300)] : List (Addr × Addr)),
      FunctionPointer r.1 ∧ FunctionPointer r.2 := by
    simp only [List.forall_mem_cons, List.not_mem_nil, false_implies, implies_true, and_true]
    decide
  have hseparate : Separate [(0x03800000, 0x03901000), (0x03800101, 0x03901100),
      (0x03800200, 0x03901201), (0x03800301, 0x03901300)] := by
    apply separate_of_pairwise
    simp only [List.pairwise_cons, List.forall_mem_cons, List.not_mem_nil, false_implies,
      implies_true, and_true, List.Pairwise.nil]
    refine ⟨⟨?_, ?_, ?_⟩, ⟨?_, ?_⟩, ?_⟩ <;> exact disjoint_of_toNat_le (by decide) (by decide)
  refine ⟨_, rfl, ?_⟩
  intro s hmem hpc hthumb
  exact (redirections_compose ⟨fun _ => 0, fun _ => 0⟩ _ hpointers hseparate).1 0x03800101
    0x03901100 (by decide) s hmem hpc hthumb

end V5gdb
