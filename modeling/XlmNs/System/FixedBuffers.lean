import XlmNs.Bridge.Buffered
import XlmNs.Subdomain.Buffered

/-!
# `System.FixedBuffers` — which strings run over the arrays of 256 bytes

`create` of the subdomain contract and the messages of the bridge work on arrays of 256 bytes. Whatever has passed a name
or a chain check is short; the label of a subdomain, an address and the resolver of a chain are taken at any length.
`fixed_buffers_iff` says exactly which calls panic, in every state the two contracts reach.
-/

namespace XlmNs.FixedBuffers

open Soroban

/-- The caller may create subdomains below the parent. -/
def MayCreate {ω : Type} (out : Subdomain.Outside ω) (env : Env) (s : Subdomain.State) (w : ω) (parent : Bytes)
    (caller : Address) : Prop :=
  ∃ rec, Subdomain.getParent out env s w parent = .ok rec ∧ rec.Admits caller

/-- **A signed call returns, with a name or an error, iff its strings fit the arrays it gets to**: `create` measures
    nothing, and a message is measured but for the address and the resolver of the route. The states are all those that
    any calls of the contracts lead to. -/
theorem fixed_buffers_iff {ω : Type} (out : Subdomain.Outside ω) (ts : List (ω × Tx Subdomain.Call))
    (bs : List (Tx Bridge.Call)) :
    (∀ env w label parent caller owner nowUnix, env.Authorises caller →
      let s := run (inWorlds (Subdomain.step out)) Subdomain.State.empty ts
      (Subdomain.createBuffered out env s w label parent caller owner nowUnix ≠ .error .trap ↔
        (MayCreate out env s w parent caller → Subdomain.LabelFits s label parent))) ∧
    ∀ i,
      let s := run Bridge.step Bridge.State.empty bs
      (Bridge.messageBuffered s i ≠ .error .trap ↔ ∀ route, Bridge.Accepted s i route → Bridge.Measured i route) := by
  constructor
  · intro env w label parent caller owner nowUnix hsigned s
    have hindexed : Subdomain.Indexed s := (Subdomain.preserves_indexed out).run ts Subdomain.indexed_empty
    rw [Subdomain.createBuffered_eq, ne_eq, Subdomain.create_traps_iff hindexed hsigned]
    exact not_and_not_right
  · intro i s
    have hrouted : Bridge.Routed s := Bridge.preserves_routed.run bs Bridge.routed_empty
    rw [Bridge.messageBuffered_eq, ne_eq, Bridge.message_panics_iff hrouted]
    constructor
    · intro hnone route haccepted
      by_contra hlong
      exact hnone ⟨route, haccepted, hlong⟩
    · rintro hmeasured ⟨route, haccepted, hlong⟩
      exact hlong (hmeasured route haccepted)

/-! ## Strings of 257 bytes -/

namespace TooLong

open Cast

/-- Alice registers her name as a parent. -/
def parents : Subdomain.State :=
  run (inWorlds (Subdomain.step Subdomain.nothingOutside)) Subdomain.State.empty
    [((), ⟨⟨1000, [alice], none⟩, .registerParent aliceXlm alice⟩)]

/-- One byte more than the buffers hold. -/
def long : Bytes := List.replicate 257 97

/-- The admin adds a chain with a long resolver, and one with a short one. -/
def routes : Bridge.State :=
  run Bridge.step Bridge.State.empty
    [byAdmin (.initializeContract admin), byAdmin (.addSupportedChain (ascii "base") long),
     byAdmin (.registerChain (ascii "base")), byAdmin (.addSupportedChain (ascii "ethereum") (ascii "0xethResolver")),
     byAdmin (.registerChain (ascii "ethereum"))]

/-- **A long label, a resolver and an address panic.** -/
theorem buffers_overrun :
    Subdomain.createBuffered Subdomain.nothingOutside ⟨2000, [alice], none⟩ parents () long aliceXlm alice alice 2000
        = .error .trap ∧
      Bridge.messageBuffered routes (.forward aliceXlm (ascii "base")) = .error .trap ∧
      Bridge.messageBuffered routes (.reverse long aliceXlm (ascii "ethereum")) = .error .trap := by
  refine ⟨?_, ?_, ?_⟩
  · have hname : (Subdomain.createBuffered Subdomain.nothingOutside ⟨2000, [alice], none⟩ parents () long aliceXlm alice
        alice 2000).map Prod.snd = .error .trap := by
      decide +kernel
    exact map_eq_error.mp hname
  · decide +kernel
  · decide +kernel

end TooLong

end XlmNs.FixedBuffers
