import Mathlib

/-! # The tables of `ncrush.c`

A decoding table is kept in rows of 16 entries, each of them four hexadecimal digits.  The larger
table repeats its first 1024 entries.  An entry holds a symbol in its low 12 bits and the length of
the symbol's code above them. -/

namespace KvmServer.Codec

def packedEntry (rows : List Nat) (index : Nat) : Nat :=
  rows.getD (index / 16) 0 >>> (16 * (15 - index % 16)) % 2 ^ 16

def huffTableLECRows : List Nat :=
  [0x510B611F610D9027600071056117A06851117007611390C061088018611BA0B3,
   0x510F7003611090426002800B6119A091512170806115A03A610A9012611DA0D7,
   0x510B6122610E9035600171236118A07A51117009611490F461098060611CA0C4,
   0x510F7005611290706107800F611AA0A1512171026116A056610C901D611EA0E8,
   0x510B611F610D902C600071066117A07151117008611390E061088020611BA0BB,
   0x510F7004611090496002800D6119A099512170FF6115A04C610A9017611DA0DF,
   0x510B6122610E903C600171246118A0875111700A6114A023610980FE611CA0CE,
   0x510F70066112908261078011611AA0A9512171036116A05F610C9022611EA0F5,
   0x510B611F610D9029600071056117A06C51117007611390CC61088019611BA0B7,
   0x510F7003611090446002800C6119A095512170806115A046610A9015611DA0DB,
   0x510B6122610E9038600171236118A07E51117009611490FC610980F0611CA0C9,
   0x510F70056112907F61078010611AA0A5512171026116A05B610C901F611EA0EC,
   0x510B611F610D9031600071066117A07551117008611390F161088040611BA0BF,
   0x510F7004611090516002800E6119A09D512170FF6115A052610A901B611DA0E4,
   0x510B6122610E903F600171246118A08C5111700A6114A02F61098120611CA0D3,
   0x510F70066112908861078013611AA0AE512171036116A064610C9025611EA0FA,
   0x510B611F610D9028600071056117A06A51117007611390C661088018611BA0B5,
   0x510F7003611090436002800B6119A093512170806115A03D610A9014611DA0D9,
   0x510B6122610E9037600171236118A07C51117009611490F861098060611CA0C7,
   0x510F7005611290786107800F611AA0A3512171026116A058610C901E611EA0EA,
   0x510B611F610D9030600071066117A07351117008611390EE61088020611BA0BD,
   0x510F7004611090506002800D6119A09B512170FF6115A04E610A901A611DA0E2,
   0x510B6122610E903E600171246118A08A5111700A6114A02D610980FE611CA0D1,
   0x510F70066112908461078011611AA0AC512171036116A062610C9024611EA0F7,
   0x510B611F610D902A600071056117A06E51117007611390D061088019611BA0B9,
   0x510F7003611090486002800C6119A097512170806115A04A610A9016611DA0DD,
   0x510B6122610E9039600171236118A08551117009611490FD610980F0611CA0CB,
   0x510F70056112908161078010611AA0A7512171026116A05D610C9021611EA0EF,
   0x510B611F610D9033600071066117A07751117008611390F261088040611BA0C2,
   0x510F7004611090596002800E6119A09F512170FF6115A054610A901C611DA0E6,
   0x510B6122610E9041600171246118A08E5111700A6114A03461098120611CA0D5,
   0x510F70066112909061078013611AA0B0512171036116A066610C9026611EA104,
   0x510B611F610D9027600071056117A06951117007611390C061088018611BA0B4,
   0x510F7003611090426002800B6119A092512170806115A03B610A9012611DA0D8,
   0x510B6122610E9035600171236118A07B51117009611490F461098060611CA0C5,
   0x510F7005611290706107800F611AA0A2512171026116A057610C901D611EA0E9,
   0x510B611F610D902C600071066117A07251117008611390E061088020611BA0BC,
   0x510F7004611090496002800D6119A09A512170FF6115A04D610A9017611DA0E1,
   0x510B6122610E903C600171246118A0895111700A6114A02B610980FE611CA0CF,
   0x510F70066112908261078011611AA0AA512171036116A061610C9022611EA0F6,
   0x510B611F610D9029600071056117A06D51117007611390CC61088019611BA0B8,
   0x510F7003611090446002800C6119A096512170806115A047610A9015611DA0DC,
   0x510B6122610E9038600171236118A08351117009611490FC610980F0611CA0CA,
   0x510F70056112907F61078010611AA0A6512171026116A05C610C901F611EA0ED,
   0x510B611F610D9031600071066117A07651117008611390F161088040611BA0C1,
   0x510F7004611090516002800E6119A09E512170FF6115A053610A901B611DA0E5,
   0x510B6122610E903F600171246118A08D5111700A6114A03261098120611CA0D4,
   0x510F70066112908861078013611AA0AF512171036116A065610C9025611EA0FB,
   0x510B611F610D9028600071056117A06B51117007611390C661088018611BA0B6,
   0x510F7003611090436002800B6119A094512170806115A045610A9014611DA0DA,
   0x510B6122610E9037600171236118A07D51117009611490F861098060611CA0C8,
   0x510F7005611290786107800F611AA0A4512171026116A05A610C901E611EA0EB,
   0x510B611F610D9030600071066117A07451117008611390EE61088020611BA0BE,
   0x510F7004611090506002800D6119A09C512170FF6115A04F610A901A611DA0E3,
   0x510B6122610E903E600171246118A08B5111700A6114A02E610980FE611CA0D2,
   0x510F70066112908461078011611AA0AD512171036116A063610C9024611EA0F9,
   0x510B611F610D902A600071056117A06F51117007611390D061088019611BA0BA,
   0x510F7003611090486002800C6119A098512170806115A04B610A9016611DA0DE,
   0x510B6122610E9039600171236118A08651117009611490FD610980F0611CA0CD,
   0x510F70056112908161078010611AA0A8512171026116A05E610C9021611EA0F3,
   0x510B611F610D9033600071066117A07951117008611390F261088040611BA0C3,
   0x510F7004611090596002800E6119A0A0512170FF6115A055610A901C611DA0E7,
   0x510B6122610E9041600171246118A08F5111700A6114A03661098120611CA0D6,
   0x510F70066112909061078013611AA0B1512171036116A067610C9026611EB0B2]

/-- `HuffTableLEC[8192]`: literals, end of stream, copy offsets, cached offsets.  The codes have at
most ten bits, apart from those that start with eleven ones. -/
def huffTableLEC (index : Nat) : Nat :=
  if index < 8192 then
    if index % 2048 = 2047 then [0xD0AB, 0xD101, 0xD100, 0xD125].getD (index / 2048) 0
    else packedEntry huffTableLECRows (index % 1024)
  else 0

def huffTableLOMRows : List Nat :=
  [0x2001400030024008200140053004500A2001400330025007200140063004700D,
   0x2001400030024008200140053004600B20014003300250092001400630048012,
   0x2001400030024008200140053004500A20014003300250072001400630047010,
   0x2001400030024008200140053004600C20014003300250092001400630049018,
   0x2001400030024008200140053004500A2001400330025007200140063004700E,
   0x2001400030024008200140053004600B20014003300250092001400630049013,
   0x2001400030024008200140053004500A2001400330025007200140063004800F,
   0x2001400030024008200140053004600C2001400330025009200140063004901C,
   0x2001400030024008200140053004500A2001400330025007200140063004700D,
   0x2001400030024008200140053004600B20014003300250092001400630048015,
   0x2001400030024008200140053004500A20014003300250072001400630047010,
   0x2001400030024008200140053004600C2001400330025009200140063004901A,
   0x2001400030024008200140053004500A2001400330025007200140063004700E,
   0x2001400030024008200140053004600B20014003300250092001400630049016,
   0x2001400030024008200140053004500A20014003300250072001400630048011,
   0x2001400030024008200140053004600C2001400330025009200140063004901E,
   0x2001400030024008200140053004500A2001400330025007200140063004700D,
   0x2001400030024008200140053004600B20014003300250092001400630048012,
   0x2001400030024008200140053004500A20014003300250072001400630047010,
   0x2001400030024008200140053004600C20014003300250092001400630049019,
   0x2001400030024008200140053004500A2001400330025007200140063004700E,
   0x2001400030024008200140053004600B20014003300250092001400630049014,
   0x2001400030024008200140053004500A2001400330025007200140063004800F,
   0x2001400030024008200140053004600C2001400330025009200140063004901D,
   0x2001400030024008200140053004500A2001400330025007200140063004700D,
   0x2001400030024008200140053004600B20014003300250092001400630048015,
   0x2001400030024008200140053004500A20014003300250072001400630047010,
   0x2001400030024008200140053004600C2001400330025009200140063004901B,
   0x2001400030024008200140053004500A2001400330025007200140063004700E,
   0x2001400030024008200140053004600B20014003300250092001400630049017,
   0x2001400030024008200140053004500A20014003300250072001400630048011,
   0x2001400030024008200140053004600C2001400330025009200140063004901F]

def huffTableLOM (index : Nat) : Nat := packedEntry huffTableLOMRows index

def huffTableMask : List Nat :=
  [0x11, 0x9E, 0xA1, 0x00, 0x00, 0x01, 0x00, 0x03, 0x00, 0x07, 0x00, 0x0F, 0x00, 0x1F, 0x00, 0x3F,
   0x00, 0x7F, 0x00, 0xFF, 0x00, 0xFF, 0x01, 0xFF, 0x03, 0xFF, 0x07, 0xFF, 0x0F, 0xFF, 0x1F, 0xFF,
   0x3F, 0xFF, 0x7F, 0xFF, 0xFF, 0x00, 0x00]

@[irreducible] def huffLengthLEC : List Nat :=
  [6, 6, 6, 7, 7, 7, 7, 7, 7, 7, 7, 8, 8, 8, 8, 8, 8, 8, 9, 8, 9, 9, 9, 9, 8, 8, 9, 9, 9, 9, 9, 9,
   8, 9, 9, 10, 9, 9, 9, 9, 9, 9, 9, 10, 9, 10, 10, 10, 9, 9, 10, 9, 10, 9, 10, 9, 9, 9, 10, 10, 9,
   10, 9, 9, 8, 9, 9, 9, 9, 10, 10, 10, 9, 9, 10, 10, 10, 10, 10, 10, 9, 9, 10, 10, 10, 10, 10, 10,
   10, 9, 10, 10, 10, 10, 10, 10, 8, 10, 10, 10, 10, 10, 10, 10, 10, 10, 10, 10, 10, 10, 10, 10, 9,
   10, 10, 10, 10, 10, 10, 10, 9, 10, 10, 10, 10, 10, 10, 9, 7, 9, 9, 10, 9, 10, 10, 10, 9, 10, 10,
   10, 10, 10, 10, 10, 9, 10, 10, 10, 10, 10, 10, 10, 10, 10, 10, 10, 10, 10, 10, 10, 10, 10, 10,
   10, 10, 10, 10, 10, 10, 10, 10, 13, 10, 10, 10, 10, 10, 10, 11, 10, 10, 10, 10, 10, 10, 10, 10,
   10, 10, 10, 10, 10, 9, 10, 10, 10, 10, 10, 9, 10, 10, 10, 10, 10, 9, 10, 10, 10, 9, 10, 10, 10,
   10, 10, 10, 10, 10, 10, 10, 10, 10, 10, 10, 10, 9, 10, 10, 10, 10, 10, 10, 10, 10, 10, 10, 10,
   10, 10, 9, 10, 8, 9, 9, 10, 9, 10, 10, 10, 9, 10, 10, 10, 9, 9, 8, 7, 13, 13, 7, 7, 10, 7, 7, 6,
   6, 6, 6, 5, 6, 6, 6, 5, 6, 5, 6, 6, 6, 6, 6, 6, 6, 6, 6, 6, 6, 6, 6, 6, 8, 5, 6, 7, 7, 13]

@[irreducible] def huffCodeLEC : List Nat :=
  [0x04, 0x00, 0x24, 0x00, 0x14, 0x00, 0x11, 0x00, 0x51, 0x00, 0x31, 0x00, 0x71, 0x00, 0x09, 0x00,
   0x49, 0x00, 0x29, 0x00, 0x69, 0x00, 0x15, 0x00, 0x95, 0x00, 0x55, 0x00, 0xD5, 0x00, 0x35, 0x00,
   0xB5, 0x00, 0x75, 0x00, 0x1D, 0x00, 0xF5, 0x00, 0x1D, 0x01, 0x9D, 0x00, 0x9D, 0x01, 0x5D, 0x00,
   0x0D, 0x00, 0x8D, 0x00, 0x5D, 0x01, 0xDD, 0x00, 0xDD, 0x01, 0x3D, 0x00, 0x3D, 0x01, 0xBD, 0x00,
   0x4D, 0x00, 0xBD, 0x01, 0x7D, 0x00, 0x6B, 0x00, 0x7D, 0x01, 0xFD, 0x00, 0xFD, 0x01, 0x03, 0x00,
   0x03, 0x01, 0x83, 0x00, 0x83, 0x01, 0x6B, 0x02, 0x43, 0x00, 0x6B, 0x01, 0x6B, 0x03, 0xEB, 0x00,
   0x43, 0x01, 0xC3, 0x00, 0xEB, 0x02, 0xC3, 0x01, 0xEB, 0x01, 0x23, 0x00, 0xEB, 0x03, 0x23, 0x01,
   0xA3, 0x00, 0xA3, 0x01, 0x1B, 0x00, 0x1B, 0x02, 0x63, 0x00, 0x1B, 0x01, 0x63, 0x01, 0xE3, 0x00,
   0xCD, 0x00, 0xE3, 0x01, 0x13, 0x00, 0x13, 0x01, 0x93, 0x00, 0x1B, 0x03, 0x9B, 0x00, 0x9B, 0x02,
   0x93, 0x01, 0x53, 0x00, 0x9B, 0x01, 0x9B, 0x03, 0x5B, 0x00, 0x5B, 0x02, 0x5B, 0x01, 0x5B, 0x03,
   0x53, 0x01, 0xD3, 0x00, 0xDB, 0x00, 0xDB, 0x02, 0xDB, 0x01, 0xDB, 0x03, 0x3B, 0x00, 0x3B, 0x02,
   0x3B, 0x01, 0xD3, 0x01, 0x3B, 0x03, 0xBB, 0x00, 0xBB, 0x02, 0xBB, 0x01, 0xBB, 0x03, 0x7B, 0x00,
   0x2D, 0x00, 0x7B, 0x02, 0x7B, 0x01, 0x7B, 0x03, 0xFB, 0x00, 0xFB, 0x02, 0xFB, 0x01, 0xFB, 0x03,
   0x07, 0x00, 0x07, 0x02, 0x07, 0x01, 0x07, 0x03, 0x87, 0x00, 0x87, 0x02, 0x87, 0x01, 0x87, 0x03,
   0x33, 0x00, 0x47, 0x00, 0x47, 0x02, 0x47, 0x01, 0x47, 0x03, 0xC7, 0x00, 0xC7, 0x02, 0xC7, 0x01,
   0x33, 0x01, 0xC7, 0x03, 0x27, 0x00, 0x27, 0x02, 0x27, 0x01, 0x27, 0x03, 0xA7, 0x00, 0xB3, 0x00,
   0x19, 0x00, 0xB3, 0x01, 0x73, 0x00, 0xA7, 0x02, 0x73, 0x01, 0xA7, 0x01, 0xA7, 0x03, 0x67, 0x00,
   0xF3, 0x00, 0x67, 0x02, 0x67, 0x01, 0x67, 0x03, 0xE7, 0x00, 0xE7, 0x02, 0xE7, 0x01, 0xE7, 0x03,
   0xF3, 0x01, 0x17, 0x00, 0x17, 0x02, 0x17, 0x01, 0x17, 0x03, 0x97, 0x00, 0x97, 0x02, 0x97, 0x01,
   0x97, 0x03, 0x57, 0x00, 0x57, 0x02, 0x57, 0x01, 0x57, 0x03, 0xD7, 0x00, 0xD7, 0x02, 0xD7, 0x01,
   0xD7, 0x03, 0x37, 0x00, 0x37, 0x02, 0x37, 0x01, 0x37, 0x03, 0xB7, 0x00, 0xB7, 0x02, 0xB7, 0x01,
   0xB7, 0x03, 0x77, 0x00, 0x77, 0x02, 0xFF, 0x07, 0x77, 0x01, 0x77, 0x03, 0xF7, 0x00, 0xF7, 0x02,
   0xF7, 0x01, 0xF7, 0x03, 0xFF, 0x03, 0x0F, 0x00, 0x0F, 0x02, 0x0F, 0x01, 0x0F, 0x03, 0x8F, 0x00,
   0x8F, 0x02, 0x8F, 0x01, 0x8F, 0x03, 0x4F, 0x00, 0x4F, 0x02, 0x4F, 0x01, 0x4F, 0x03, 0xCF, 0x00,
   0x0B, 0x00, 0xCF, 0x02, 0xCF, 0x01, 0xCF, 0x03, 0x2F, 0x00, 0x2F, 0x02, 0x0B, 0x01, 0x2F, 0x01,
   0x2F, 0x03, 0xAF, 0x00, 0xAF, 0x02, 0xAF, 0x01, 0x8B, 0x00, 0xAF, 0x03, 0x6F, 0x00, 0x6F, 0x02,
   0x8B, 0x01, 0x6F, 0x01, 0x6F, 0x03, 0xEF, 0x00, 0xEF, 0x02, 0xEF, 0x01, 0xEF, 0x03, 0x1F, 0x00,
   0x1F, 0x02, 0x1F, 0x01, 0x1F, 0x03, 0x9F, 0x00, 0x9F, 0x02, 0x9F, 0x01, 0x9F, 0x03, 0x5F, 0x00,
   0x4B, 0x00, 0x5F, 0x02, 0x5F, 0x01, 0x5F, 0x03, 0xDF, 0x00, 0xDF, 0x02, 0xDF, 0x01, 0xDF, 0x03,
   0x3F, 0x00, 0x3F, 0x02, 0x3F, 0x01, 0x3F, 0x03, 0xBF, 0x00, 0xBF, 0x02, 0x4B, 0x01, 0xBF, 0x01,
   0xAD, 0x00, 0xCB, 0x00, 0xCB, 0x01, 0xBF, 0x03, 0x2B, 0x00, 0x7F, 0x00, 0x7F, 0x02, 0x7F, 0x01,
   0x2B, 0x01, 0x7F, 0x03, 0xFF, 0x00, 0xFF, 0x02, 0xAB, 0x00, 0xAB, 0x01, 0x6D, 0x00, 0x59, 0x00,
   0xFF, 0x17, 0xFF, 0x0F, 0x39, 0x00, 0x79, 0x00, 0xFF, 0x01, 0x05, 0x00, 0x45, 0x00, 0x34, 0x00,
   0x0C, 0x00, 0x2C, 0x00, 0x1C, 0x00, 0x00, 0x00, 0x3C, 0x00, 0x02, 0x00, 0x22, 0x00, 0x10, 0x00,
   0x12, 0x00, 0x08, 0x00, 0x32, 0x00, 0x0A, 0x00, 0x2A, 0x00, 0x1A, 0x00, 0x3A, 0x00, 0x06, 0x00,
   0x26, 0x00, 0x16, 0x00, 0x36, 0x00, 0x0E, 0x00, 0x2E, 0x00, 0x1E, 0x00, 0x3E, 0x00, 0x01, 0x00,
   0xED, 0x00, 0x18, 0x00, 0x21, 0x00, 0x25, 0x00, 0x65, 0x00, 0xFF, 0x1F]

def huffLengthLOM : List Nat :=
  [4, 2, 3, 4, 3, 4, 4, 5, 4, 5, 5, 6, 6, 7, 7, 8, 7, 8, 8, 9, 9, 8, 9, 9, 9, 9, 9, 9, 9, 9, 9, 9]

def huffCodeLOM : List Nat :=
  [0x0001, 0x0000, 0x0002, 0x0009, 0x0006, 0x0005, 0x000D, 0x000B, 0x0003, 0x001B, 0x0007, 0x0017,
   0x0037, 0x000F, 0x004F, 0x006F, 0x002F, 0x00EF, 0x001F, 0x005F, 0x015F, 0x009F, 0x00DF, 0x01DF,
   0x003F, 0x013F, 0x00BF, 0x01BF, 0x007F, 0x017F, 0x00FF, 0x01FF]

def copyOffsetBitsLUT : List Nat :=
  [0, 0, 0, 0, 1, 1, 2, 2, 3, 3, 4, 4, 5, 5, 6, 6, 7, 7, 8, 8, 9, 9, 10, 10, 11, 11, 12, 12, 13, 13,
   14, 14]

def copyOffsetBaseLUT : List Nat :=
  [1, 2, 3, 4, 5, 7, 9, 13, 17, 25, 33, 49, 65, 97, 129, 193, 257, 385, 513, 769, 1025, 1537, 2049,
   3073, 4097, 6145, 8193, 12289, 16385, 24577, 32769, 49153]

def lomBitsLUT : List Nat :=
  [0, 0, 0, 0, 0, 0, 0, 0, 1, 1, 1, 1, 2, 2, 2, 2, 3, 3, 3, 3, 4, 4, 4, 4, 6, 6, 8, 8, 14, 14]

def lomBaseLUT : List Nat :=
  [2, 3, 4, 5, 6, 7, 8, 9, 10, 12, 14, 16, 18, 22, 26, 30, 34, 42, 50, 58, 66, 82, 98, 114, 130,
   194, 258, 514, 2, 2]

end KvmServer.Codec
