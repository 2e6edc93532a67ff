import ArgaldOS.Interrupt.Descriptors

/-! # What the interrupt table says after `initIDT`

    A table of descriptors is a map from vectors to entries, and a call of
    `idtSetDescriptor` edits one entry of it.  The edit replaces every field of
    the gate except one: the S bit (`empty` in the source) is left as the frame
    had it, as are all the entries that no call names.

    * `decodeGate_setEntry`: the gate that a call leaves;
    * `initIDT_table`: the whole table, from the frame that `kmalloc` returned;
    * `initIDT_correct_iff`: for which frames the table is right.
-/

namespace ArgaldOS

open BitFields

/-! ## Section 1: Edits of one entry -/

section edits
variable (hhdm : UInt64) (IDTPtr : idtr) (v : Fin 256)

/-- The pointer to byte `k` of the entry. -/
def entryByte (k : Fin 16) : UInt64 :=
  IDTPtr.offset + 16 * UInt64.ofNat v.val + UInt64.ofNat k.val

/-- The bytes of the table are all different. -/
theorem entryByte_inj {v w : Fin 256} {k j : Fin 16}
    (h : entryByte IDTPtr v k = entryByte IDTPtr w j) : v = w ∧ k = j := by
  have hoffset : ∀ (v : Fin 256) (k : Fin 16),
      (16 * UInt64.ofNat v.val + UInt64.ofNat k.val).toNat = 16 * v.val + k.val := by
    intro v k
    have hv := v.isLt
    have hk := k.isLt
    rw [UInt64.toNat_add, UInt64.toNat_mul, Words.ofNat_toNat_lt v.val (by omega),
      Words.ofNat_toNat_lt k.val (by omega)]
    simp only [UInt64.reduceToNat]
    omega
  have heq : 16 * UInt64.ofNat v.val + UInt64.ofNat k.val =
      16 * UInt64.ofNat w.val + UInt64.ofNat j.val := by
    unfold entryByte at h
    grind
  have hnat := congrArg UInt64.toNat heq
  rw [hoffset, hoffset] at hnat
  have hk := k.isLt
  have hj := j.isLt
  exact ⟨Fin.ext (by omega), Fin.ext (by omega)⟩

/-- On the table, `F` is an edit of the entry of `v` by `f`. -/
def Edits (F : Mem → Mem) (f : Entry → Entry) : Prop :=
  ∀ mem, idtEntry hhdm IDTPtr (F mem) =
    Function.update (idtEntry hhdm IDTPtr mem) v (f (idtEntry hhdm IDTPtr mem v))

variable {hhdm IDTPtr v}

theorem Edits.comp {F G : Mem → Mem} {f g : Entry → Entry} (hF : Edits hhdm IDTPtr v F f)
    (hG : Edits hhdm IDTPtr v G g) : Edits hhdm IDTPtr v (fun m => G (F m)) (fun e => g (f e)) := by
  intro mem
  rw [hG (F mem), hF mem, Function.update_self, Function.update_idem]

variable (hhdm IDTPtr v)

/-- Storing a byte that depends on the one that is there. -/
theorem edits_modify (k : Fin 16) (g : UInt8 → UInt8) :
    Edits hhdm IDTPtr v
      (fun m => m.hstore8 hhdm (entryByte IDTPtr v k) (g (m.hload8 hhdm (entryByte IDTPtr v k))))
      (fun e => Function.update e k (g (e k))) := by
  intro mem
  funext w j
  have hstore : ∀ b, entryByte IDTPtr w j ≠ entryByte IDTPtr v k →
      (mem.hstore8 hhdm (entryByte IDTPtr v k) b) (entryByte IDTPtr w j - hhdm) =
        mem (entryByte IDTPtr w j - hhdm) := by
    intro b hne
    apply Mem.store8_ne
    intro heq
    exact hne (by grind)
  dsimp only
  by_cases hv : w = v
  · subst hv
    rw [Function.update_self]
    by_cases hk : j = k
    · subst hk
      rw [Function.update_self]
      exact Mem.store8_self _ _ _
    · rw [Function.update_of_ne hk]
      exact hstore _ fun heq => hk (entryByte_inj IDTPtr heq).2
  · rw [Function.update_of_ne hv]
    exact hstore _ fun heq => hv (entryByte_inj IDTPtr heq).1

theorem edits_store8 (k : Fin 16) (b : UInt8) :
    Edits hhdm IDTPtr v (fun m => m.hstore8 hhdm (entryByte IDTPtr v k) b)
      (fun e => Function.update e k b) :=
  edits_modify hhdm IDTPtr v k fun _ => b

theorem edits_storeField (k : Fin 16) (F : Field) (x : Nat) :
    Edits hhdm IDTPtr v (fun m => m.hstoreField hhdm (entryByte IDTPtr v k) F x)
      (fun e => Function.update e k (F.put (e k) x)) :=
  edits_modify hhdm IDTPtr v k fun b => F.put b x

theorem edits_store16 {k k1 : Fin 16} (h1 : entryByte IDTPtr v k1 = entryByte IDTPtr v k + 1)
    (w : UInt16) :
    Edits hhdm IDTPtr v (fun m => m.hstore16 hhdm (entryByte IDTPtr v k) w)
      (fun e => Function.update (Function.update e k w.toUInt8) k1 (w >>> 8).toUInt8) := by
  unfold Mem.hstore16
  rw [← h1]
  exact (edits_store8 hhdm IDTPtr v k _).comp (edits_store8 hhdm IDTPtr v k1 _)

theorem edits_store32 {k k1 k2 k3 : Fin 16}
    (h1 : entryByte IDTPtr v k1 = entryByte IDTPtr v k + 1)
    (h2 : entryByte IDTPtr v k2 = entryByte IDTPtr v k + 2)
    (h3 : entryByte IDTPtr v k3 = entryByte IDTPtr v k + 3) (w : UInt32) :
    Edits hhdm IDTPtr v (fun m => m.hstore32 hhdm (entryByte IDTPtr v k) w)
      (fun e => Function.update (Function.update (Function.update (Function.update e k w.toUInt8)
        k1 (w >>> 8).toUInt8) k2 (w >>> 16).toUInt8) k3 (w >>> 24).toUInt8) := by
  unfold Mem.hstore32
  rw [← h1, ← h2, ← h3]
  have hlow := (edits_store8 hhdm IDTPtr v k w.toUInt8).comp
    (edits_store8 hhdm IDTPtr v k1 (w >>> 8).toUInt8)
  have hhigh := (edits_store8 hhdm IDTPtr v k2 (w >>> 16).toUInt8).comp
    (edits_store8 hhdm IDTPtr v k3 (w >>> 24).toUInt8)
  exact hlow.comp hhigh

end edits

/-! ## Section 2: `idtSetDescriptor` -/

/-- **A call is an edit of the entry of its vector.** -/
theorem edits_idtSetDescriptor (hhdm : UInt64) (IDTPtr : idtr) (vect : UInt8) (isrThingy : UInt64)
    (gateType dpl : UInt8) :
    Edits hhdm IDTPtr ⟨vect.toNat, vect.toNat_lt⟩
      (idtSetDescriptor hhdm vect isrThingy gateType dpl IDTPtr.offset)
      (setEntry isrThingy gateType dpl) := by
  let v : Fin 256 := ⟨vect.toNat, vect.toNat_lt⟩
  have hentry : IDTPtr.offset + 16 * vect.toUInt64 = entryByte IDTPtr v 0 := by
    show _ = IDTPtr.offset + 16 * UInt64.ofNat vect.toNat + 0
    rw [UInt64.ofNat_uInt8ToNat, UInt64.add_zero]
  have hbyte : ∀ k : Fin 16, entryByte IDTPtr v 0 + UInt64.ofNat k.val = entryByte IDTPtr v k := by
    intro k
    show IDTPtr.offset + 16 * UInt64.ofNat vect.toNat + 0 + UInt64.ofNat k.val = _
    rw [UInt64.add_zero]
    rfl
  have hnext : ∀ k j d : Fin 16, k.val + d.val = j.val →
      entryByte IDTPtr v j = entryByte IDTPtr v k + UInt64.ofNat d.val := by
    intro k j d hj
    rw [← hbyte j, ← hbyte k, ← hj, UInt64.ofNat_add, UInt64.add_assoc]
  -- The stores in the order of the source.
  have hoffset1 := edits_store16 hhdm IDTPtr v (hnext 0 1 1 rfl) (isrThingy &&& 0xFFFF).toUInt16
  have hoffset2 := edits_store16 hhdm IDTPtr v (hnext 6 7 1 rfl)
    ((isrThingy >>> 16) &&& 0xFFFF).toUInt16
  have hoffset3 := edits_store32 hhdm IDTPtr v (hnext 8 9 1 rfl) (hnext 8 10 2 rfl)
    (hnext 8 11 3 rfl) ((isrThingy >>> 32) &&& 0xFFFFFFFF).toUInt32
  have hselector := edits_store16 hhdm IDTPtr v (hnext 2 3 1 rfl) 0x08
  have hist := edits_storeField hhdm IDTPtr v 4 Field.ist 0
  have hgateType := edits_storeField hhdm IDTPtr v 5 Field.gateType gateType.toNat
  have hdpl := edits_storeField hhdm IDTPtr v 5 Field.dpl dpl.toNat
  have hpresent := edits_storeField hhdm IDTPtr v 5 Field.present 1
  have hall := ((((((hoffset1.comp hoffset2).comp hoffset3).comp hselector).comp hist).comp
    hgateType).comp hdpl).comp hpresent
  intro mem
  have hmem := hall mem
  dsimp only at hmem
  unfold idtSetDescriptor
  rw [hentry]
  have h6 : entryByte IDTPtr v 0 + 6 = entryByte IDTPtr v 6 := hbyte 6
  have h8 : entryByte IDTPtr v 0 + 8 = entryByte IDTPtr v 8 := hbyte 8
  have h2 : entryByte IDTPtr v 0 + 2 = entryByte IDTPtr v 2 := hbyte 2
  have h4 : entryByte IDTPtr v 0 + 4 = entryByte IDTPtr v 4 := hbyte 4
  have h5 : entryByte IDTPtr v 0 + 5 = entryByte IDTPtr v 5 := hbyte 5
  dsimp only
  rw [h6, h8, h2, h4, h5, hmem]
  rfl

/-- The three pieces of the address are put together again. -/
theorem combine64bit_offsets (isrThingy : UInt64) :
    let offset1 := (isrThingy &&& 0xFFFF).toUInt16
    let offset2 := ((isrThingy >>> 16) &&& 0xFFFF).toUInt16
    let offset3 := ((isrThingy >>> 32) &&& 0xFFFFFFFF).toUInt32
    combine64bit (offset3 >>> 24).toUInt8 (offset3 >>> 16).toUInt8 (offset3 >>> 8).toUInt8
      offset3.toUInt8 (offset2 >>> 8).toUInt8 offset2.toUInt8 (offset1 >>> 8).toUInt8
      offset1.toUInt8 = isrThingy := by
  intro offset1 offset2 offset3
  have hlt := isrThingy.toNat_lt
  have h1 : offset1.toNat = isrThingy.toNat % 2 ^ 16 := by
    show (isrThingy &&& 0xFFFF).toUInt16.toNat = _
    rw [UInt64.toNat_toUInt16, Words.toNat_and_mask _ _ 16 rfl, Nat.mod_mod]
  have h2 : offset2.toNat = isrThingy.toNat / 2 ^ 16 % 2 ^ 16 := by
    show ((isrThingy >>> 16) &&& 0xFFFF).toUInt16.toNat = _
    rw [UInt64.toNat_toUInt16, Words.toNat_and_mask _ _ 16 rfl, Nat.mod_mod,
      Words.toNat_shiftRight_lt _ _ (by simp)]
    rfl
  have h3 : offset3.toNat = isrThingy.toNat / 2 ^ 32 := by
    show ((isrThingy >>> 32) &&& 0xFFFFFFFF).toUInt32.toNat = _
    rw [UInt64.toNat_toUInt32, Words.toNat_and_mask _ _ 32 rfl, Nat.mod_mod,
      Words.toNat_shiftRight_lt _ _ (by simp)]
    show isrThingy.toNat / 2 ^ 32 % 2 ^ 32 = _
    omega
  apply Words.ext
  rw [toNat_combine64bit, Words.toNat_byte32 offset3 24 (by simp),
    Words.toNat_byte32 offset3 16 (by simp), Words.toNat_byte32 offset3 8 (by simp),
    UInt32.toNat_toUInt8, Words.toNat_byte16 offset2 8 (by simp), UInt16.toNat_toUInt8,
    Words.toNat_byte16 offset1 8 (by simp), UInt16.toNat_toUInt8, h1, h2, h3]
  simp only [UInt32.reduceToNat, UInt16.reduceToNat]
  omega

/-- **The gate that a call leaves**: the S bit is that of the entry before. -/
theorem decodeGate_setEntry (isrThingy : UInt64) (gateType dpl : UInt8) (e : Entry) :
    decodeGate (setEntry isrThingy gateType dpl e) =
      { offset := isrThingy, selector := 0x08, type := gateType.toNat % 2 ^ 4,
        s := (decodeGate e).s, dpl := dpl.toNat % 2 ^ 2, present := 1 } := by
  have h5 : setEntry isrThingy gateType dpl e 5 =
      Field.present.put (Field.dpl.put (Field.gateType.put (e 5) gateType.toNat) dpl.toNat) 1 := rfl
  have htype : Field.gateType.get (setEntry isrThingy gateType dpl e 5) = gateType.toNat % 2 ^ 4 := by
    rw [h5, Field.get_put_disjoint (by decide), Field.get_put_disjoint (by decide),
      Field.get_put_self]
    rfl
  have hs : Field.empty.get (setEntry isrThingy gateType dpl e 5) = Field.empty.get (e 5) := by
    rw [h5, Field.get_put_disjoint (by decide), Field.get_put_disjoint (by decide),
      Field.get_put_disjoint (by decide)]
  have hdpl : Field.dpl.get (setEntry isrThingy gateType dpl e 5) = dpl.toNat % 2 ^ 2 := by
    rw [h5, Field.get_put_disjoint (by decide), Field.get_put_self]
    rfl
  have hpresent : Field.present.get (setEntry isrThingy gateType dpl e 5) = 1 := by
    rw [h5, Field.get_put_self]
    rfl
  unfold decodeGate
  rw [htype, hs, hdpl, hpresent]
  congr 1
  · exact combine64bit_offsets isrThingy
  · show ((0 : UInt8).toUInt16 <<< 8) ||| (0x08 : UInt8).toUInt16 = 0x08
    decide

/-! ## Section 3: The table -/

namespace Descriptor

/-- The vector as an index of the table. -/
def vector (d : Descriptor) : Fin 256 := ⟨d.vect.toNat, d.vect.toNat_lt⟩

/-- The gate that the call asks for. -/
def gate (handlers : Handler → UInt64) (d : Descriptor) : Gate where
  offset := handlers d.handler
  selector := 0x08
  type := d.gateType.toNat
  s := 0
  dpl := d.dpl.toNat
  present := 1

end Descriptor

/-- The table that the kernel is meant to run with. -/
structure TableCorrect (handlers : Handler → UInt64) (t : Fin 256 → Entry) : Prop where
  set   : ∀ d ∈ descriptors, decodeGate (t d.vector) = d.gate handlers
  unset : ∀ v, (∀ d ∈ descriptors, d.vector ≠ v) → (decodeGate (t v)).present = 0

/-- The calls of `initIRQ` on the table. -/
def setDescriptors (handlers : Handler → UInt64) (t : Fin 256 → Entry) : Fin 256 → Entry :=
  Loops.updates Descriptor.vector (fun d => setEntry (handlers d.handler) d.gateType d.dpl)
    descriptors t

/-- Each call of `initIRQ` edits its entry. -/
theorem initIRQ_table (hhdm : UInt64) (IDTPtr : idtr) (handlers : Handler → UInt64) (mem : Mem) :
    idtEntry hhdm IDTPtr (initIRQ hhdm handlers IDTPtr.offset mem) =
      setDescriptors handlers (idtEntry hhdm IDTPtr mem) := by
  unfold initIRQ setDescriptors
  generalize descriptors = ds
  induction ds generalizing mem with
  | nil => rfl
  | cons d ds ih =>
    have hstep := edits_idtSetDescriptor hhdm IDTPtr d.vect (handlers d.handler) d.gateType d.dpl mem
    rw [List.foldl_cons, ih, hstep]
    rfl

/-- **The table after `initIDT`**, from what the frame held when `kmalloc`
    returned it. -/
theorem initIDT_table (hhdm : UInt64) (ls : largestSection) (handlers : Handler → UInt64)
    (mem : Mem) :
    let IDTPtr := (initIDT hhdm ls handlers mem).1
    idtEntry hhdm IDTPtr (initIDT hhdm ls handlers mem).2 =
      setDescriptors handlers (idtEntry hhdm IDTPtr (kmalloc hhdm ls mem).2) :=
  initIRQ_table hhdm (initIDT hhdm ls handlers mem).1 handlers (kmalloc hhdm ls mem).2

/-- No vector is set twice, and the types and levels fit in their fields. -/
theorem descriptors_nodup : (descriptors.map Descriptor.vector).Nodup := by
  decide

theorem descriptors_fit :
    descriptors.all (fun d => decide (d.gateType < 16) && decide (d.dpl < 4)) = true := by
  decide

/-- The entry of a call. -/
theorem setDescriptors_set {handlers : Handler → UInt64} {d : Descriptor} (hd : d ∈ descriptors)
    (t : Fin 256 → Entry) :
    decodeGate (setDescriptors handlers t d.vector) =
      { d.gate handlers with s := (decodeGate (t d.vector)).s } := by
  have hfit := List.all_eq_true.mp descriptors_fit d hd
  rw [Bool.and_eq_true, decide_eq_true_iff, decide_eq_true_iff] at hfit
  have htype : d.gateType.toNat % 2 ^ 4 = d.gateType.toNat :=
    Nat.mod_eq_of_lt (UInt8.lt_iff_toNat_lt.mp hfit.1)
  have hdpl : d.dpl.toNat % 2 ^ 2 = d.dpl.toNat :=
    Nat.mod_eq_of_lt (UInt8.lt_iff_toNat_lt.mp hfit.2)
  unfold setDescriptors
  rw [Loops.updates_of_mem descriptors_nodup hd, decodeGate_setEntry, htype, hdpl]
  rfl

/-- The other entries. -/
theorem setDescriptors_unset {handlers : Handler → UInt64} {v : Fin 256}
    (hv : ∀ d ∈ descriptors, d.vector ≠ v) (t : Fin 256 → Entry) :
    setDescriptors handlers t v = t v :=
  Loops.updates_of_not_mem hv t

/-! ## Section 4: `initIDT` -/

/-- What the frame must have held: no S bit where a descriptor is set, no
    present bit elsewhere. -/
structure FrameSuitable (t : Fin 256 → Entry) : Prop where
  set   : ∀ d ∈ descriptors, (decodeGate (t d.vector)).s = 0
  unset : ∀ v, (∀ d ∈ descriptors, d.vector ≠ v) → (decodeGate (t v)).present = 0

theorem tableCorrect_setDescriptors_iff (handlers : Handler → UInt64) (t : Fin 256 → Entry) :
    TableCorrect handlers (setDescriptors handlers t) ↔ FrameSuitable t := by
  constructor
  · intro h
    constructor
    · intro d hd
      have hgate := h.set d hd
      rw [setDescriptors_set hd] at hgate
      exact congrArg Gate.s hgate
    · intro v hv
      have hpresent := h.unset v hv
      rw [setDescriptors_unset hv] at hpresent
      exact hpresent
  · intro h
    constructor
    · intro d hd
      rw [setDescriptors_set hd, h.set d hd]
      rfl
    · intro v hv
      rw [setDescriptors_unset hv]
      exact h.unset v hv

/-- **Main theorem on the interrupt table**: it is right exactly if the frame
    that `kmalloc` returned happened to be suitable. -/
theorem initIDT_correct_iff (hhdm : UInt64) (ls : largestSection) (handlers : Handler → UInt64)
    (mem : Mem) :
    TableCorrect handlers
        (idtEntry hhdm (initIDT hhdm ls handlers mem).1 (initIDT hhdm ls handlers mem).2) ↔
      FrameSuitable (idtEntry hhdm (initIDT hhdm ls handlers mem).1 (kmalloc hhdm ls mem).2) := by
  rw [initIDT_table]
  exact tableCorrect_setDescriptors_iff handlers _

/-- An allocator at 1 MiB, all memory behind its bitmap filled with ones. -/
def regionOfOnes : largestSection where
  maxBegin := 0x100000
  maxLength := 0x800000
  bitmapReserved := 0x1000

def memoryOfOnes : Mem := fun a => if a < 0x101000 then 0 else 0xFF

/-- With ones in the frame the gate of the first exception is a segment
    descriptor, and vector 2 is present. -/
theorem initIDT_memoryOfOnes :
    let IDTPtr := (initIDT 0xFFFF800000000000 regionOfOnes (fun _ => 0) memoryOfOnes).1
    let t := idtEntry 0xFFFF800000000000 IDTPtr
      (initIDT 0xFFFF800000000000 regionOfOnes (fun _ => 0) memoryOfOnes).2
    IDTPtr.offset = 0xFFFF800000101000 ∧ (decodeGate (t 0)).s = 1 ∧ (decodeGate (t 2)).present = 1 ∧
      ¬ TableCorrect (fun _ => 0) t := by
  intro IDTPtr t
  have hs : (decodeGate (t 0)).s = 1 := by
    decide +kernel
  refine ⟨by decide +kernel, hs, by decide +kernel, ?_⟩
  intro h
  have hgate := h.set ⟨0, .divideException, 15, 0⟩ (by decide)
  have hzero : (decodeGate (t 0)).s = 0 := congrArg Gate.s hgate
  rw [hs] at hzero
  cases hzero

end ArgaldOS
