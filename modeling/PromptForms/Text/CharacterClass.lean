/-
  PromptForms.Text.CharacterClass
  ───────────────────────────────
  **THE MAJOR CLASS OF A CHARACTER.**

  The Unicode general category of a code point, reduced to its first letter:
  letter, mark, number, punctuation, symbol, separator or other.  The assignment is
  piecewise constant, so it is kept as a list of runs in ascending order, each run a
  class letter followed by its length in hexadecimal digits (a run of one point has
  no digits).

      classOf        the class of a character
      isAlphanumeric letters and numbers of every script
      digitValue?    the value of a decimal digit of any script
-/

namespace PromptForms.Text

/-! ## §1. The table of runs. -/

/-- The first letter of the Unicode general category. -/
inductive CharacterClass where
  | letter | mark | number | punctuation | symbol | separator | other
  deriving DecidableEq, Repr, Inhabited

namespace CharacterClass

/-- The class that a letter of the run text stands for. -/
def ofLetter? : Char → Option CharacterClass
  | 'L' => some .letter
  | 'M' => some .mark
  | 'N' => some .number
  | 'P' => some .punctuation
  | 'S' => some .symbol
  | 'Z' => some .separator
  | 'C' => some .other
  | _ => none

/-- The value of a lower-case hexadecimal digit. -/
def hexValue (c : Char) : Nat :=
  if c.isDigit then c.toNat - '0'.toNat else c.toNat - 'a'.toNat + 10

/-- The runs from U+0000 to U+10FFFF. -/
def runText : String :=
  "C20ZP3SP6SP4NaP2S3P2L1aP3SPSL1aPSPSC21ZPS5PS2LPSCS4N2SLP2SNLPN3PL17SL1fSL1caS4LcSeL5S7LSLS11M7" ++
    "0L5SL2C2L4PLC4S2LPL3CLCL14CL53SL8bSM7La6CL26C2LP6L29P2C2S3CM2dPMPM2PM2PMC8L1bC4L4P2C11S3P2SP2S" ++
    "2MbPCP3L2bM15NaP4L2ML63PLM7CSM6L2M2SM4L2NaL3S2LPeC2LML1eM1bC2L59MbLCeNaL21M9L2SP3LC2MS2L16M4LM" ++
    "9LM3LM5C2PfCL19M3C2PCLbC5L18SL6C9M8L2aM18CM21L36M3LM12LM7LaM2P2NaPL10M3CL8C2L2C2L16CL7CLC3L4C2" ++
    "MLM7C2M2C2M3LC8MC4L2CL3M2C2NaL2S2N6S2LPMC2M3CL6C4L2C2L16CL7CL2CL2CL2C2MCM5C4M2C2M3C3MC7L4CLC7N" ++
    "aM2L3MPCaM3CL9CL3CL16CL7CL2CL5C2MLM8CM3CM3C2LCfL2M2C2NaPSC7LM6CM3CL8C2L2C2L16CL7CL2CL5C2MLM7C2" ++
    "M2C2M3C7M3C4L2CL3M2C2NaSLN6CaMLCL6C3L3CL4C3L2CLCL2C3L2C3L3C3LcC4M5C3M3CM4C2LC6MCeNdS8C5M5L8CL3" ++
    "CL17CL10C2MLM7CM3CM4C7M2CL3C2LC2L2M2C2NaC7PN7SLM3PL8CL3CL17CLaCL5C2MLM7CM3CM4C7M2C6L2CL2M2C2Na" ++
    "CL2CdM4L9CL3CL29M2LM7CM3CM4LSC4L3MN7L3M2C2N13SL6CM3CL12C3L18CL9CLC2L7C3MC4M6CMCM8C6NaC2M2PCcL3" ++
    "0ML2M7C4SL7M8PNaP2C25L2CLCL5CL18CLCLaML2M9LC2L5CLCM6C2NaC2L4C20LS3PfSPS3M2S6N14SMSMSMP4M2L8CL2" ++
    "4C4M14PM2L5MbCM24CS8MS6CS2P5S4P2C25L2bM14LNaP6L6M4L4M3LM3L2M7L3M4LdMcLMNaM4S2L26CLC5LC2L2bPL14" ++
    "dCL4C2L7CLCL4C2L29CL4C2L21CL4C2L7CLCL4C2LfCL39CL4C2L43C2M3P9N14C3L10SaC6L56C2L6C2PL26cSPL11ZL1" ++
    "aP2C3L4bP3N3L8C7L12M4C9L13M3P2C9L12M2CcLdCL3CM2CcL34M20P3LP3SLMC2NaC6NaC6PbM3CMNaC6L59C7L5M2L2" ++
    "2MLC5L46CaL1fCMcC4McC4SC3P2NaL1eC2L5CbL2cC4L1aC6NbC3S22L17M5C2P2L35MaCM1dC2MNaC6NaC6P7LP6C2M1f" ++
    "C31M5L2fM11L8C3NaP7SaM9S9P2CM3L1eMdL2NaL2cMeC8P4L24M14C3P5NaC3L3NaL24P2L9C7L2bC2L3P8C8M3PM15L4" ++
    "ML6ML2M3LC5Lc0M40L116C2L6C2L26C2L6C2L8CLCLCLCL1fC2L35CL7SLS3L3CL7S3L4C2L6CS3LdS3C2L3CL7S2CZbC5" ++
    "P18Z2C5ZP14SPdSPcZC10NLC2N6S3P2LNaS3P2CLdC3S21CfM21CfS2LS4LS2LaSLS3L5S6LSLSLSL4SLbS2L4S5L5S4LS" ++
    "N33L2N5S2C4S178P4S1dP2SfcC19SbC15N3cS4eN16S268PeN1eS31P2S1fPaS193P16S3fP4S20P2S176C2S20CS69Le5" ++
    "S6L4M3L2C5P4NP2L26CLC5LC2L38C7LPCeML17C9L7CL7CL7CL7CL7CL7CL7CL7CM20P2fLP20S2PcC22S1aCS59CcSd6C" ++
    "1aScC4ZP3SL2NPaS2PcSN9M6PL5S2N3L2PS2CL56C2M2S2L3PL5aPL4C5L2bCL5eCS2N4SaL20S24CcL10S1fCNaS1eN8S" ++
    "NfS20NaS27NfS140L19c0S40L568dC3S37C9L2eP2L10dP3L10NaL2C14L2fM4PMaPL1fM2L46NaM2P6C8S17L9S2L67S2" ++
    "L40C5L2CLCL5C18L10ML3ML4ML17M5S4MC3N6S4C6L34P4C8M2L32M12C8P2NaC6M12L6P3LPL2MNaL1cM8P2L17MdCbPL" ++
    "1dC3M4L2fMePdCLNaC4P2L5MLaNaL5CL29MeC9L3ML8M2C2NaC2P4L17S3LM3L32MLM3L2M2L5M2LMLC18L3P2LbM5P2L3" ++
    "M2CaL6C2L6C2L6C9L7CL7CL2bSLeS2C4L73M8PM2C2NaC6L2ba4CcL17C4L31C2104L16eC2L6aC26L7CcL5C5LMLaSLdC" ++
    "L5CLCL2CL2CL6cS11C10L16bP2S10L40C2L36C7SC20LcS4M10PaC6M10P23CPeSPS3CPSP2C4L5CL87C4P3SP6SP4NaP2" ++
    "S3P2L1aP3SPSL1aPSPSP7L59C3L6C2L6C2L6C2L3C3S7CS7CdS2C2LcCL1aCL13CL2CLfC2LeC22L7bC5P3C4N2dC3S9N3" ++
    "9S11N2S3CSdC3SC2fS2dMC82L1dC3L31CfMN1bC4L20N4C9L14NL8NC5L26M5C5L1eCPL24C4L8PN5C2aL9eC2NaC6L24C" ++
    "4L24C4L28C8L34CbPLbCLfCL7CL2CLbCLfCL7CL2C43L137C9L16CaL8C18L6CL2aCL9C45L6C2LCL2cCL2C3LC2L17CPN" ++
    "8L17S2N7L1fC8N9C30L13CL2C5N5L16N6C3PL1aC5PC40L38C4N2L2N10C2N2eLM3CM2C5M4L4CL3CL1dC2M3C4MN9C7P9" ++
    "C7L1dN2PL1dN3C20L8SL1cM2C4N5P7C9L36C3P7L16C2N8L13C5N8L12C7P4CcN7C50L49C37L33CdL33C7N6L24M4C8Na" ++
    "C126N1fCL2aCM2PC2L2C4eL1dNaLC8L16MbN4P5C16L12M4P4C26L15N7C14L17C9M3L35MfP7C4N1eML2M2LC9M4L2dMb" ++
    "P2CP4MCdL19C7NaC6M3L24MeCNaP4LM2LC8L23MP2LC9M3L30MeL4P4M4PM2NaLPLP3CN14CbL12CL19McP6MC41L7CLCL" ++
    "4CLfCLaPC6L2fMcC5NaC6M4CL8C2L2C2L16CL7CL2CL5CM2LM7C2M2C2M3C2LC6MC5L5M2C2M7C3M5C8bL35M12L4P5NaP" ++
    "2CPML3C1eL30M14L2PLC8NaCa6L2fM7C2M9P17L4M2C22L30M11P3LCbNaC6PdC13L2bMdLPC6NaC36L1bC2MfC4NcP3SL" ++
    "7Cb9L2cMfPC64L40N13CcL8C2LC2L8CL2CL18M6CM2C2M4LMLM2P3C9NaC46L8C2L27M7C2M7LPLMC1bLMaL28M7LM4P8M" ++
    "C8LMbL2eM10P3LP5CdL49C107L9CL25M8CM8LP5CaN1dC3P2L1eC2M16CMeC49L7CL2CL26M6C3MCM2CM7LMC8NaC6L6CL" ++
    "2CL20M5CM2CM5LC7NaC136L13M4P2Cb7LCfN15S1dCdPL39aC66N6fCP5CbLc4Ca4cL61P2CdL42fCfd1L247C21b9L239" ++
    "C7L1fCNaC4P2L4fCNaC6L1eC2M5PCaL30M7P5S4L4PSCaNaCN7CL15C5L13C2b0L40N17P4C65L4bC4MLM37C7M4LdC40L" ++
    "2PLMCbM2CeL17f8C8L4d6C2aL9C22e7L4CL7CL2CL123C2dL3C11L4C8L18cC904L6bC5LdC3L9C7LaC2SM2PC1260M2eC" ++
    "2M17C9S74C3cSf6CaS27C2S3cM5S3M6C8M8S2M7S1eM4S3dC15S42M3SC9aN14CcS57C9N19C87L55CL47CL2C2LC2L2C2" ++
    "L4CLcCLCL7CL41CL4C2L8CL7CL1cCL4CL5CLC3L7CL154C2L19SL19SL1fSL19SL1fSL19SL1fSL19SL1fSL19SL8C2N32" ++
    "S200M37S4M32S8MSeMS2P5CfM5CMfC450L1fCe1M7CM11C2M7CM2CM5Cd5L2dC3M7L7C2NaC4LSC140L1eMC11L2cM4NaC" ++
    "5SC4e0L7CL4CL2CLfCLc5C2N9M7C29L44M7LC4NaC4P2C311N3bSN3SN4C4cN2dSNfCc2L4CL1bCL2CLC2LCLaCL4CLCLC" ++
    "6LC4LCLCLCL3CL2CLC2LCLCLCLCLCL2CLC2L4CL7CL4CL4CLCLaCL11C5L3CL5CL11C34S2C10eS2cC4S64CcSfC2SfCSf" ++
    "CS25CaNdSa1C38S1dCdS2cC4S9C7S2CeS6C9aS3d8C5S10C3SdC3S74CcS59C7ScC4SCfScC4S38C8SaC6S28C8S1eC2S2" ++
    "C4eS154CcSeC2S5C3S5C3S7C9S1dC3SbC5S6CaSaC6S8C8S7C9S93CS37C25NaC406La6e0C20L1039C7LdeC2L1682CeL" ++
    "1d31Cc1fL21eC5e2L134bCaedb5Mf0C2fe10"

/-- The first code point and the class of each run, in ascending order. -/
def starts : Array (Nat × CharacterClass) :=
  (go runText.toList 0 none #[]).toArray
where
  /-- Reads the runs; `open?` is the class and the length digits of the run being read. -/
  go : List Char → Nat → Option (CharacterClass × Nat) → Array (Nat × CharacterClass) →
      List (Nat × CharacterClass)
    | [], _, _, done => done.toList
    | c :: rest, next, current, done =>
      match ofLetter? c with
      | some cls => let start := next + (current.elim 0 fun r => max r.2 1)
        go rest start (some (cls, 0)) (done.push (start, cls))
      | none => go rest next (current.map fun r => (r.1, r.2 * 16 + hexValue c)) done

/-- The last entry of a table, sorted by its first components, that starts at or before `n`,
looked for between the positions `lo` and `hi`. -/
def lookup (table : Array (Nat × CharacterClass)) (n lo hi : Nat) : CharacterClass :=
  if lo + 1 < hi then
    let mid := (lo + hi) / 2
    if (table.getD mid default).1 ≤ n then lookup table n mid hi else lookup table n lo mid
  else (table.getD lo default).2
termination_by hi - lo

end CharacterClass

/-- The class of a character. -/
def classOf (c : Char) : CharacterClass :=
  CharacterClass.lookup CharacterClass.starts c.toNat 0 CharacterClass.starts.size

/-! ## §2. Letters and digits. -/

/-- Letters and numbers of every script. -/
def isAlphanumeric (c : Char) : Bool :=
  match classOf c with
  | .letter | .number => true
  | _ => false

/-- The zeros of the decimal digit sets; the other nine digits of a set follow its zero. -/
def decimalZeros : List Nat :=
  [0x30, 0x660, 0x6f0, 0x7c0, 0x966, 0x9e6, 0xa66, 0xae6, 0xb66, 0xbe6, 0xc66, 0xce6, 0xd66,
   0xde6, 0xe50, 0xed0, 0xf20, 0x1040, 0x1090, 0x17e0, 0x1810, 0x1946, 0x19d0, 0x1a80, 0x1a90,
   0x1b50, 0x1bb0, 0x1c40, 0x1c50, 0xa620, 0xa8d0, 0xa900, 0xa9d0, 0xa9f0, 0xaa50, 0xabf0,
   0xff10, 0x104a0, 0x10d30, 0x11066, 0x110f0, 0x11136, 0x111d0, 0x112f0, 0x11450, 0x114d0,
   0x11650, 0x116c0, 0x11730, 0x118e0, 0x11950, 0x11c50, 0x11d50, 0x11da0, 0x16a60, 0x16ac0,
   0x16b50, 0x1d7ce, 0x1d7d8, 0x1d7e2, 0x1d7ec, 0x1d7f6, 0x1e140, 0x1e2f0, 0x1e950, 0x1fbf0]

/-- The value of a decimal digit of any script. -/
def digitValue? (c : Char) : Option Nat :=
  (decimalZeros.find? fun d => d ≤ c.toNat && c.toNat < d + 10).map (c.toNat - ·)

/-- The decimal digits of every script. -/
def isDecimalDigit (c : Char) : Bool := (digitValue? c).isSome

end PromptForms.Text
