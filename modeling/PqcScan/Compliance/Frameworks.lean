import PqcScan.Compliance.Engine

/-!
# The shipped frameworks

The rule tables of `compliance/frameworks`, as the engine loads them: one definition a
file, in the order of the file names.
-/

namespace PqcScan
namespace Compliance

/-- `anssi-pqc.yaml`. -/
def anssiPqc : FrameworkRules where
  framework := "anssi-pqc"
  title := "ANSSI PQC Roadmap (France)"
  rules :=
    [ { predicates := [.algorithm "RSA", .keySizeLt 3072],
        clause := "ANSSI-PQC:RSA-deprecated", verdict := .nonCompliant,
        note := "ANSSI: RSA <3072 obsolète." },
      { predicates := [.algorithm "RSA"], clause := "ANSSI-PQC:RSA-hybrid-required",
        verdict := .atRisk, deadline := some "2030-12-31",
        note := "Construction hybride PQC requise pour les systèmes sensibles." },
      { predicates := [.algorithm "ECDSA"], clause := "ANSSI-PQC:ECDSA-hybrid-required",
        verdict := .atRisk, deadline := some "2030-12-31" },
      { predicates := [.algorithm "AES-128"], clause := "ANSSI-PQC:AES-128-acceptable",
        verdict := .advisory },
      { predicates := [.algorithm "ML-KEM-768"], clause := "ANSSI-PQC:KEM-approved",
        verdict := .compliant },
      { predicates := [.algorithm "ML-DSA-65"], clause := "ANSSI-PQC:DSA-approved",
        verdict := .compliant } ]

/-- `au-asd-ism.yaml`. -/
def auAsdIsm : FrameworkRules where
  framework := "au-asd-ism"
  title := "Australian ASD ISM / PSPF — Post-Quantum Cryptography Transition"
  rules :=
    [ { predicates := [.algorithm "SHA-1"], clause := "ASD-ISM:hash-disallowed",
        verdict := .nonCompliant,
        note := "SHA-1 not an ASD-approved cryptographic algorithm." },
      { predicates := [.algorithm "MD5"], clause := "ASD-ISM:hash-disallowed",
        verdict := .nonCompliant },
      { predicates := [.algorithm "3DES"], clause := "ASD-ISM:cipher-disallowed",
        verdict := .nonCompliant },
      { predicates := [.algorithm "RSA"], clause := "ASD-ISM:asymmetric-cease-2030",
        verdict := .atRisk, deadline := some "2030-12-31",
        note := "ASD: cease traditional asymmetric crypto (RSA) by end 2030; migrate to " ++
          "ML-KEM/ML-DSA." },
      { predicates := [.algorithm "ECDSA"], clause := "ASD-ISM:asymmetric-cease-2030",
        verdict := .atRisk, deadline := some "2030-12-31" },
      { predicates := [.algorithm "ECDH"], clause := "ASD-ISM:asymmetric-cease-2030",
        verdict := .atRisk, deadline := some "2030-12-31" },
      { predicates := [.algorithm "DH"], clause := "ASD-ISM:asymmetric-cease-2030",
        verdict := .atRisk, deadline := some "2030-12-31" },
      { predicates := [.algorithm "DSA"], clause := "ASD-ISM:asymmetric-cease-2030",
        verdict := .atRisk, deadline := some "2030-12-31" },
      { predicates := [.algorithm "ML-KEM"], clause := "ASD-ISM:PQC-approved",
        verdict := .compliant, note := "ML-KEM is ASD-approved (ISM-1990..1995)." },
      { predicates := [.algorithm "ML-DSA"], clause := "ASD-ISM:PQC-approved",
        verdict := .compliant },
      { predicates := [.algorithm "SLH-DSA"], clause := "ASD-ISM:PQC-approved",
        verdict := .compliant } ]

/-- `bsi-tr-02102-1.yaml`. -/
def bsiTr021021 : FrameworkRules where
  framework := "bsi-tr-02102-1"
  title := "BSI TR-02102-1 — Cryptographic Mechanisms (Germany)"
  rules :=
    [ { predicates := [.algorithm "RSA", .keySizeLt 3000],
        clause := "BSI-TR-02102-1:RSA-deprecated", verdict := .nonCompliant,
        note := "BSI: RSA mit weniger als 3000 Bit ist nicht mehr empfohlen." },
      { predicates := [.algorithm "ECDSA"], clause := "BSI-TR-02102-1:ECDSA-monitor",
        verdict := .atRisk, note := "Hybride PQC-Verfahren werden empfohlen." },
      { predicates := [.algorithm "AES-128"],
        clause := "BSI-TR-02102-1:AES-128-acceptable", verdict := .advisory,
        note := "AES-128 zulässig bis ca. 2030; AES-256 für neue Systeme empfohlen." },
      { predicates := [.algorithm "AES-256"],
        clause := "BSI-TR-02102-1:AES-256-recommended", verdict := .compliant },
      { predicates := [.algorithm "SHA-1"], clause := "BSI-TR-02102-1:SHA-1-disallowed",
        verdict := .nonCompliant },
      { predicates := [.algorithm "ML-KEM"], clause := "BSI-TR-02102-1:ML-KEM-approved",
        verdict := .compliant },
      { predicates := [.algorithm "ML-DSA"], clause := "BSI-TR-02102-1:ML-DSA-approved",
        verdict := .compliant } ]

/-- `bukukerja.yaml`. -/
def bukukerja : FrameworkRules where
  framework := "bukukerja"
  title := "BUKUKERJA MIGRASI PQC 2025 (Malaysia)"
  rules :=
    [ { predicates := [.classification "sangat-tinggi"],
        clause := "BUKUKERJA:risk-register/sangat-tinggi", verdict := .nonCompliant,
        note := "Algoritma terdedah secara klasik atau oleh Shor/Grover." },
      { predicates := [.classification "tinggi"],
        clause := "BUKUKERJA:risk-register/tinggi", verdict := .atRisk,
        note := "Terdedah kepada Shor pada CRQC; perancangan migrasi PQC diperlukan." },
      { predicates := [.classification "sederhana"],
        clause := "BUKUKERJA:risk-register/sederhana", verdict := .advisory,
        note :=
          "Grover memendekkan kekuatan separuh; pertimbangkan saiz kunci dua kali ganda." },
      { predicates := [.classification "rendah"],
        clause := "BUKUKERJA:risk-register/rendah", verdict := .compliant },
      { predicates := [.classification "pqc-ready"],
        clause := "BUKUKERJA:risk-register/pqc-ready", verdict := .compliant,
        note := "Algoritma piawai NIST FIPS 203/204/205." } ]

/-- `ca-cccs.yaml`. -/
def caCccs : FrameworkRules where
  framework := "ca-cccs"
  title := "Canada CCCS — PQC Migration Roadmap (ITSM.40.001 / ITSP.40.111)"
  rules :=
    [ { predicates := [.algorithm "SHA-1"], clause := "CCCS:ITSP40.111-hash-disallowed",
        verdict := .nonCompliant, note := "SHA-1 not permitted by ITSP.40.111." },
      { predicates := [.algorithm "MD5"], clause := "CCCS:ITSP40.111-hash-disallowed",
        verdict := .nonCompliant },
      { predicates := [.algorithm "3DES"], clause := "CCCS:ITSP40.111-cipher-disallowed",
        verdict := .nonCompliant },
      { predicates := [.algorithm "RSA", .keySizeLt 2048],
        clause := "CCCS:ITSP40.111-weak-key", verdict := .nonCompliant },
      { predicates := [.algorithm "RSA"], clause := "CCCS:PQC-roadmap-high-priority",
        verdict := .atRisk, deadline := some "2031-12-31",
        note :=
          "ITSM.40.001: migrate high-priority systems off quantum-vulnerable RSA by end " ++
          "2031, remainder by 2035." },
      { predicates := [.algorithm "ECDSA"], clause := "CCCS:PQC-roadmap-high-priority",
        verdict := .atRisk, deadline := some "2031-12-31" },
      { predicates := [.algorithm "ECDH"], clause := "CCCS:PQC-roadmap-high-priority",
        verdict := .atRisk, deadline := some "2031-12-31" },
      { predicates := [.algorithm "DSA"], clause := "CCCS:PQC-roadmap-remaining",
        verdict := .atRisk, deadline := some "2035-12-31",
        note := "Remaining systems complete PQC migration by end 2035." },
      { predicates := [.algorithm "ML-KEM"], clause := "CCCS:ITSP40.111-PQC-approved",
        verdict := .compliant },
      { predicates := [.algorithm "ML-DSA"], clause := "CCCS:ITSP40.111-PQC-approved",
        verdict := .compliant },
      { predicates := [.algorithm "SLH-DSA"], clause := "CCCS:ITSP40.111-PQC-approved",
        verdict := .compliant } ]

/-- `cnsa2.yaml`. -/
def cnsa2 : FrameworkRules where
  framework := "cnsa2"
  title := "CNSA 2.0 — Commercial National Security Algorithm Suite (NSA)"
  rules :=
    [ { predicates := [.algorithm "RSA", .keySizeLt 3072],
        clause := "CNSA2:RSA-deprecated", verdict := .nonCompliant,
        deadline := some "2030-12-31",
        note := "RSA <3072 deprecated for NSS; transition by 2030." },
      { predicates := [.algorithm "RSA"], clause := "CNSA2:RSA-transition",
        verdict := .atRisk, deadline := some "2033-12-31",
        note := "RSA must be replaced by ML-KEM/ML-DSA in NSS by 2033." },
      { predicates := [.algorithm "ECDSA"], clause := "CNSA2:ECDSA-transition",
        verdict := .atRisk, deadline := some "2033-12-31",
        note := "ECDSA must be replaced by ML-DSA in NSS by 2033." },
      { predicates := [.algorithm "ML-KEM-768"], clause := "CNSA2:KEM-approved",
        verdict := .compliant, note := "ML-KEM-768 is the CNSA 2.0 KEM." },
      { predicates := [.algorithm "ML-KEM-1024"], clause := "CNSA2:KEM-approved",
        verdict := .compliant },
      { predicates := [.algorithm "ML-DSA-65"], clause := "CNSA2:DSA-approved",
        verdict := .compliant },
      { predicates := [.algorithm "ML-DSA-87"], clause := "CNSA2:DSA-approved",
        verdict := .compliant },
      { predicates := [.algorithm "SHA-1"], clause := "CNSA2:SHA1-disallowed",
        verdict := .nonCompliant },
      { predicates := [.algorithm "AES-128"], clause := "CNSA2:AES-128-deprecated",
        verdict := .nonCompliant,
        note := "CNSA 2.0 mandates AES-256 for symmetric encryption." } ]

/-- `enisa-pqc.yaml`. -/
def enisaPqc : FrameworkRules where
  framework := "enisa-pqc"
  title := "ENISA Post-Quantum Cryptography Report (EU)"
  rules :=
    [ { predicates := [.algorithm "RSA", .keySizeLt 3072],
        clause := "ENISA-PQC:RSA-deprecated", verdict := .nonCompliant },
      { predicates := [.algorithm "ECDSA"], clause := "ENISA-PQC:ECDSA-monitor",
        verdict := .atRisk, deadline := some "2030-12-31" },
      { predicates := [.algorithm "SHA-1"], clause := "ENISA-PQC:SHA-1-disallowed",
        verdict := .nonCompliant },
      { predicates := [.algorithm "AES-128"], clause := "ENISA-PQC:AES-128-acceptable",
        verdict := .advisory },
      { predicates := [.algorithm "AES-256"], clause := "ENISA-PQC:AES-256-recommended",
        verdict := .compliant },
      { predicates := [.algorithm "ML-KEM"], clause := "ENISA-PQC:KEM-approved",
        verdict := .compliant },
      { predicates := [.algorithm "ML-DSA"], clause := "ENISA-PQC:DSA-approved",
        verdict := .compliant },
      { predicates := [.algorithm "SLH-DSA"], clause := "ENISA-PQC:SLH-DSA-approved",
        verdict := .compliant } ]

/-- `eu-dora.yaml`. -/
def euDora : FrameworkRules where
  framework := "eu-dora"
  title := "EU DORA — Digital Operational Resilience Act (Reg. (EU) 2022/2554)"
  rules :=
    [ { predicates := [.algorithm "SHA-1"], clause := "DORA:RTS-2024-1774-Art6-weak-hash",
        verdict := .nonCompliant, deadline := some "2025-01-17",
        note := "Not a leading-practice cryptographic technique under RTS Art. 6." },
      { predicates := [.algorithm "MD5"], clause := "DORA:RTS-2024-1774-Art6-weak-hash",
        verdict := .nonCompliant, deadline := some "2025-01-17" },
      { predicates := [.algorithm "RC4"], clause := "DORA:RTS-2024-1774-Art6-weak-cipher",
        verdict := .nonCompliant, deadline := some "2025-01-17" },
      { predicates := [.algorithm "DES"], clause := "DORA:RTS-2024-1774-Art6-weak-cipher",
        verdict := .nonCompliant, deadline := some "2025-01-17" },
      { predicates := [.algorithm "3DES"],
        clause := "DORA:RTS-2024-1774-Art6-weak-cipher", verdict := .nonCompliant,
        deadline := some "2025-01-17" },
      { predicates := [.algorithm "RSA", .keySizeLt 2048],
        clause := "DORA:RTS-2024-1774-Art6-weak-key", verdict := .nonCompliant,
        deadline := some "2025-01-17" },
      { predicates := [.classification "tinggi"],
        clause := "DORA:RTS-2024-1774-Art6-cryptanalysis-update", verdict := .atRisk,
        note := "RTS Art. 6 requires updating cryptographic technology per cryptanalysis " ++
          "developments (quantum); document a migration plan." },
      { predicates := [.classification "pqc-ready"],
        clause := "DORA:RTS-2024-1774-Art6-aligned", verdict := .compliant } ]

/-- `eu-nis2.yaml`. -/
def euNis2 : FrameworkRules where
  framework := "eu-nis2"
  title := "EU NIS2 — Directive (EU) 2022/2555, Art. 21(2)(h) Cryptography"
  rules :=
    [ { predicates := [.algorithm "SHA-1"], clause := "NIS2:Art21-2-h-weak-hash",
        verdict := .nonCompliant,
        note := "SHA-1 inconsistent with state-of-the-art cryptography under Art. 21(2)(h)." },
      { predicates := [.algorithm "MD5"], clause := "NIS2:Art21-2-h-weak-hash",
        verdict := .nonCompliant },
      { predicates := [.algorithm "RC4"], clause := "NIS2:Art21-2-h-weak-cipher",
        verdict := .nonCompliant },
      { predicates := [.algorithm "DES"], clause := "NIS2:Art21-2-h-weak-cipher",
        verdict := .nonCompliant },
      { predicates := [.algorithm "3DES"], clause := "NIS2:Art21-2-h-weak-cipher",
        verdict := .nonCompliant },
      { predicates := [.algorithm "RSA", .keySizeLt 2048],
        clause := "NIS2:Art21-2-h-weak-key", verdict := .nonCompliant },
      { predicates := [.algorithm "RSA"], clause := "NIS2:PQC-roadmap-transition",
        verdict := .atRisk, deadline := some "2030-12-31",
        note :=
          "EU PQC roadmap (per COM(2026)13 amendment proposal): begin transition by end " ++
          "2026, critical infrastructure by 2030." },
      { predicates := [.algorithm "ECDSA"], clause := "NIS2:PQC-roadmap-transition",
        verdict := .atRisk, deadline := some "2030-12-31" },
      { predicates := [.algorithm "ECDH"], clause := "NIS2:PQC-roadmap-transition",
        verdict := .atRisk, deadline := some "2030-12-31" },
      { predicates := [.classification "pqc-ready"], clause := "NIS2:Art21-2-h-aligned",
        verdict := .compliant } ]

/-- `iso-27001-2022.yaml`. -/
def iso270012022 : FrameworkRules where
  framework := "iso-27001-2022"
  title := "ISO/IEC 27001:2022 — Annex A 8.24 Use of Cryptography"
  rules :=
    [ { predicates := [.algorithm "SHA-1"], clause := "ISO-27001-2022:A.8.24-weak-hash",
        verdict := .nonCompliant,
        note :=
          "SHA-1 not an approved cryptographic technique under the A.8.24 policy." },
      { predicates := [.algorithm "MD5"], clause := "ISO-27001-2022:A.8.24-weak-hash",
        verdict := .nonCompliant },
      { predicates := [.algorithm "DES"], clause := "ISO-27001-2022:A.8.24-weak-cipher",
        verdict := .nonCompliant },
      { predicates := [.algorithm "3DES"], clause := "ISO-27001-2022:A.8.24-weak-cipher",
        verdict := .nonCompliant },
      { predicates := [.algorithm "RC4"], clause := "ISO-27001-2022:A.8.24-weak-cipher",
        verdict := .nonCompliant },
      { predicates := [.algorithm "RSA", .keySizeLt 2048],
        clause := "ISO-27001-2022:A.8.24-weak-key", verdict := .nonCompliant,
        note := "Key strength below the A.8.24 documented minimum." },
      { predicates := [.classification "tinggi"],
        clause := "ISO-27001-2022:A.8.24-inventory-monitor", verdict := .atRisk,
        note :=
          "Record in the A.8.24 crypto inventory (also A.5.23 for cloud) and document a PQC " ++
          "migration plan." },
      { predicates := [.classification "pqc-ready"],
        clause := "ISO-27001-2022:A.8.24-aligned", verdict := .compliant } ]

/-- `jp-cryptrec.yaml`. -/
def jpCryptrec : FrameworkRules where
  framework := "jp-cryptrec"
  title := "Japan CRYPTREC — e-Government Recommended Ciphers List"
  rules :=
    [ { predicates := [.algorithm "SHA-1"], clause := "CRYPTREC:non-recommended-hash",
        verdict := .nonCompliant,
        note := "SHA-1 not on the e-Government Recommended Ciphers List." },
      { predicates := [.algorithm "MD5"], clause := "CRYPTREC:non-recommended-hash",
        verdict := .nonCompliant },
      { predicates := [.algorithm "RSA", .keySizeLt 2048],
        clause := "CRYPTREC:non-recommended-key", verdict := .nonCompliant,
        note := "RSA-1024 / RSA <2048 not e-Government recommended." },
      { predicates := [.algorithm "3DES"], clause := "CRYPTREC:non-recommended-cipher",
        verdict := .nonCompliant,
        note :=
          "3-key Triple DES no longer e-Government recommended (2024-05-16 remark)." },
      { predicates := [.algorithm "RC4"], clause := "CRYPTREC:non-recommended-cipher",
        verdict := .nonCompliant },
      { predicates := [.classification "tinggi"], clause := "CRYPTREC:PQC-monitored",
        verdict := .atRisk,
        note := "PQC under CRYPTREC monitoring; no e-Government recommendation or deadline " ++
          "published yet." },
      { predicates := [.algorithm "ML-KEM"], clause := "CRYPTREC:PQC-monitored",
        verdict := .atRisk,
        note :=
          "ML-KEM tracked by CRYPTREC monitoring; not yet on the e-Government Recommended " ++
          "list." },
      { predicates := [.algorithm "ML-DSA"], clause := "CRYPTREC:PQC-monitored",
        verdict := .atRisk,
        note :=
          "ML-DSA tracked by CRYPTREC monitoring; not yet on the e-Government Recommended " ++
          "list." } ]

/-- `mas-notice-655.yaml`. -/
def masNotice655 : FrameworkRules where
  framework := "mas-notice-655"
  title := "MAS Notice 655 — Cyber Hygiene (Singapore)"
  rules :=
    [ { predicates := [.algorithm "SHA-1"], clause := "MAS-655:hash-disallowed",
        verdict := .nonCompliant },
      { predicates := [.algorithm "MD5"], clause := "MAS-655:hash-disallowed",
        verdict := .nonCompliant },
      { predicates := [.algorithm "RC4"], clause := "MAS-655:cipher-disallowed",
        verdict := .nonCompliant },
      { predicates := [.algorithm "DES"], clause := "MAS-655:cipher-disallowed",
        verdict := .nonCompliant },
      { predicates := [.algorithm "3DES"], clause := "MAS-655:cipher-disallowed",
        verdict := .nonCompliant },
      { predicates := [.algorithm "RSA", .keySizeLt 2048],
        clause := "MAS-655:RSA-disallowed", verdict := .nonCompliant },
      { predicates := [.classification "tinggi"],
        clause := "MAS-655:industry-cryptography-monitor", verdict := .atRisk,
        note :=
          "Document a PQC migration plan to maintain 'industry-accepted cryptography'." },
      { predicates := [.classification "pqc-ready"],
        clause := "MAS-655:industry-cryptography-aligned", verdict := .compliant } ]

/-- `mykripto-migration-framework.yaml`. -/
def mykriptoMigrationFramework : FrameworkRules where
  framework := "mykripto"
  title := "CyberSecurity Malaysia (MyKripto) PQC Migration Framework"
  rules :=
    [ { predicates := [.classification "sangat-tinggi"],
        clause := "MYKRIPTO:phase-1/immediate-action", verdict := .nonCompliant,
        note := "Phase 1 — immediate replacement; algoritma sudah lemah secara klasik." },
      { predicates := [.classification "tinggi"],
        clause := "MYKRIPTO:phase-2/migrate-by-2030", verdict := .atRisk,
        deadline := some "2030-12-31",
        note := "Phase 2 — rancang migrasi hibrid PQC menjelang 2030." },
      { predicates := [.classification "sederhana"],
        clause := "MYKRIPTO:phase-3/strengthen-key-size", verdict := .advisory,
        note := "Phase 3 — kuatkan saiz kunci untuk mengimbangi Grover." },
      { predicates := [.classification "pqc-ready"],
        clause := "MYKRIPTO:phase-4/pqc-aligned", verdict := .compliant, note :=
          "Phase 4 — selari dengan FIPS 203/204/205." } ]

/-- `nacsa-arahan-ke-9.yaml`. -/
def nacsaArahanKe9 : FrameworkRules where
  framework := "nacsa-arahan-ke-9"
  title :=
    "NACSA Arahan KE No. 9 — Penyediaan Data dan Maklumat Pelaksanaan Migrasi Kriptografi " ++
      "Pasca Kuantum (Malaysia)"
  rules :=
    [ { predicates := [.algorithm "MD5"], clause := "NACSA-9:hash-disallowed",
        verdict := .nonCompliant,
        note := "MD5 dilarang. Akta 854 — Wajib gantikan dengan SHA-256 / SHA-3." },
      { predicates := [.algorithm "SHA-1"], clause := "NACSA-9:hash-disallowed",
        verdict := .nonCompliant,
        note := "SHA-1 dilarang. Akta 854 — Wajib gantikan dengan SHA-256 / SHA-3." },
      { predicates := [.algorithm "RC4"], clause := "NACSA-9:cipher-disallowed",
        verdict := .nonCompliant,
        note := "RC4 dilarang. Wajib gantikan dengan AES-256-GCM." },
      { predicates := [.algorithm "3DES"], clause := "NACSA-9:cipher-disallowed",
        verdict := .nonCompliant,
        note := "3DES dilarang. Wajib gantikan dengan AES-256-GCM." },
      { predicates := [.algorithm "ML-KEM"], clause := "NACSA-9:pqc-aligned",
        verdict := .compliant,
        note := "ML-KEM (FIPS 203). Selari dengan keperluan migrasi PQC." },
      { predicates := [.algorithm "ML-DSA"], clause := "NACSA-9:pqc-aligned",
        verdict := .compliant,
        note := "ML-DSA (FIPS 204). Selari dengan keperluan migrasi PQC." },
      { predicates := [.algorithm "SLH-DSA"], clause := "NACSA-9:pqc-aligned",
        verdict := .compliant,
        note := "SLH-DSA (FIPS 205). Selari dengan keperluan migrasi PQC." },
      { predicates := [.classification "pqc-ready"], clause := "NACSA-9:pqc-ready",
        verdict := .compliant },
      { predicates := [.classification "sangat-tinggi"],
        clause := "NACSA-9:fasa-4-deploy", verdict := .nonCompliant,
        deadline := some "2027-06-30", note :=
          "Algoritma terdedah secara kuantum. Wajib digantikan menjelang akhir Fasa 4 " ++
          "Pelaksanaan (Jun 2027)." },
      { predicates := [.classification "tinggi"], clause := "NACSA-9:fasa-3-validate",
        verdict := .atRisk, deadline := some "2026-12-31",
        note :=
          "Migrasi PQC mesti melepasi Fasa 3 Pengesahan (Validate) menjelang Dis 2026; " ++
          "Pelaksanaan menjelang Jun 2027." },
      { predicates := [.classification "sederhana"], clause := "NACSA-9:fasa-2-select",
        verdict := .advisory, deadline := some "2026-06-30",
        note :=
          "Algoritma simetrik dilemahkan oleh Grover. Pertimbangkan saiz kunci dua kali " ++
          "ganda atau pilih pengganti PQC menjelang Fasa 2 Pemilihan (Jun 2026)." },
      { predicates := [.classification "rendah"], clause := "NACSA-9:fasa-5-monitor",
        verdict := .compliant,
        note := "Risiko rendah. Pemantauan berterusan di bawah Fasa 5 (Julai 2027+)." },
      { predicates := [.classification "info"], clause := "NACSA-9:fasa-1-assess",
        verdict := .advisory, deadline := some "2025-12-31",
        note :=
          "Aset perlu didaftar dalam Borang Pelaksanaan Migrasi PQC (Lampiran A, Jadual 0) " ++
          "menjelang akhir Fasa 1 Persediaan (Dis 2025)." },
      { predicates := [.probeFamily "ot", .classification "sangat-tinggi"],
        clause := "NACSA-9:ot-no-crypto", verdict := .nonCompliant,
        deadline := some "2027-06-30",
        note :=
          "Protokol OT tanpa kriptografi (Modbus/S7/DNP3/IEC-104/EtherNet-IP/BACnet plain). " ++
          "Wajib dilindungi (TLS-wrap atau IEC 62351 / CIP Security / BACnet-SC) menjelang " ++
          "Fasa 4 (Jun 2027)." },
      { predicates := [.algorithm "Basic128Rsa15"], clause := "NACSA-9:opcua-deprecated",
        verdict := .nonCompliant,
        note :=
          "OPC UA Basic128Rsa15 menggunakan SHA-1 + RSA-PKCS#1 v1.5 (terlarang). Wajib " ++
          "gantikan dengan Aes256_Sha256_RsaPss atau profil PQC." },
      { predicates := [.algorithm "Basic256"], clause := "NACSA-9:opcua-deprecated",
        verdict := .nonCompliant,
        note :=
          "OPC UA Basic256 (SHA-1) terlarang. Gunakan Basic256Sha256 atau lebih baik." } ]

/-- `nist-ir-8547.yaml`. -/
def nistIr8547 : FrameworkRules where
  framework := "nist-ir-8547"
  title := "NIST IR 8547 — Transition to Post-Quantum Cryptography Standards"
  rules :=
    [ { predicates := [.algorithm "RSA", .keySizeLt 2048],
        clause := "NIST-IR-8547:RSA-disallowed", verdict := .nonCompliant,
        note := "RSA <2048 disallowed — migrate immediately." },
      { predicates := [.algorithm "RSA", .keySizeLt 3072],
        clause := "NIST-IR-8547:RSA-deprecated-2030", verdict := .atRisk,
        deadline := some "2030-12-31",
        note := "RSA-2048 deprecated after 2030; transition to PQC by 2035." },
      { predicates := [.algorithm "ECDSA"],
        clause := "NIST-IR-8547:ECDSA-deprecated-2030", verdict := .atRisk,
        deadline := some "2030-12-31",
        note := "ECDSA over P-256 / P-384 deprecated after 2030 for federal systems." },
      { predicates := [.algorithm "SHA-1"], clause := "NIST-IR-8547:SHA1-disallowed",
        verdict := .nonCompliant,
        note := "SHA-1 disallowed for digital signatures (NIST SP 800-131A Rev 2)." },
      { predicates := [.algorithm "MD5"], clause := "NIST-IR-8547:MD5-disallowed",
        verdict := .nonCompliant },
      { predicates := [.algorithm "ML-KEM"], clause := "NIST-IR-8547:KEM-approved",
        verdict := .compliant, note := "ML-KEM (FIPS 203) is the approved PQC KEM." },
      { predicates := [.algorithm "ML-DSA"], clause := "NIST-IR-8547:DSA-approved",
        verdict := .compliant,
        note := "ML-DSA (FIPS 204) is the approved PQC signature scheme." },
      { predicates := [.algorithm "SLH-DSA"], clause := "NIST-IR-8547:SLH-DSA-approved",
        verdict := .compliant,
        note := "SLH-DSA (FIPS 205) is the approved hash-based signature." } ]

/-- `nist-sp-800-227.yaml`. -/
def nistSp800227 : FrameworkRules where
  framework := "nist-sp-800-227"
  title := "NIST SP 800-227 — Recommendations for Key-Establishment Using PQC"
  rules :=
    [ { predicates := [.algorithm "RSA", .keySizeLt 2048],
        clause := "NIST-SP-800-227:RSA-KE-disallowed", verdict := .nonCompliant,
        note := "RSA <2048 not approved for key transport." },
      { predicates := [.algorithm "RSA"], clause := "NIST-SP-800-227:RSA-KE-deprecated",
        verdict := .atRisk, deadline := some "2030-12-31",
        note := "Use ML-KEM (FIPS 203) or hybrid for new key-establishment by 2030." },
      { predicates := [.algorithm "ECDH"], clause := "NIST-SP-800-227:ECDH-deprecated",
        verdict := .atRisk, deadline := some "2030-12-31",
        note := "ECDH alone is Shor-vulnerable; pair with ML-KEM in a hybrid construction." },
      { predicates := [.algorithm "DH", .keySizeLt 3072],
        clause := "NIST-SP-800-227:DH-disallowed", verdict := .nonCompliant },
      { predicates := [.algorithm "ML-KEM"], clause := "NIST-SP-800-227:KEM-approved",
        verdict := .compliant },
      { predicates := [.algorithm "X25519MLKEM768"],
        clause := "NIST-SP-800-227:hybrid-approved", verdict := .compliant,
        note := "Hybrid X25519 + ML-KEM-768 is the recommended interim construction." } ]

/-- `pci-dss-4.yaml`. -/
def pciDss4 : FrameworkRules where
  framework := "pci-dss-4"
  title := "PCI DSS 4.0 — Payment Card Industry Data Security Standard"
  rules :=
    [ { predicates := [.algorithm "SHA-1"], clause := "PCI-DSS-4:12.3.3-weak-hash",
        verdict := .nonCompliant, deadline := some "2025-03-31",
        note :=
          "SHA-1 is not strong cryptography; document removal in the 12.3.3 cipher/protocol " ++
          "inventory." },
      { predicates := [.algorithm "MD5"], clause := "PCI-DSS-4:12.3.3-weak-hash",
        verdict := .nonCompliant, deadline := some "2025-03-31" },
      { predicates := [.algorithm "RC4"], clause := "PCI-DSS-4:12.3.3-weak-cipher",
        verdict := .nonCompliant, deadline := some "2025-03-31" },
      { predicates := [.algorithm "DES"], clause := "PCI-DSS-4:12.3.3-weak-cipher",
        verdict := .nonCompliant, deadline := some "2025-03-31" },
      { predicates := [.algorithm "3DES"], clause := "PCI-DSS-4:12.3.3-weak-cipher",
        verdict := .nonCompliant, deadline := some "2025-03-31",
        note :=
          "3DES/2TDEA no longer strong cryptography; inventory and plan replacement per " ++
          "12.3.3." },
      { predicates := [.algorithm "RSA", .keySizeLt 2048],
        clause := "PCI-DSS-4:12.3.3-weak-key", verdict := .nonCompliant,
        deadline := some "2025-03-31",
        note := "RSA <2048 below strong-cryptography threshold (SP 800-57)." },
      { predicates := [.classification "tinggi"],
        clause := "PCI-DSS-4:12.3.3-inventory-monitor", verdict := .atRisk,
        note := "Include this cipher/protocol in the 12.3.3 inventory and monitor industry " ++
          "viability for quantum risk." },
      { predicates := [.classification "pqc-ready"],
        clause := "PCI-DSS-4:12.3.3-inventory-aligned", verdict := .compliant } ]

/-- `qramm.yaml`. -/
def qramm : FrameworkRules where
  framework := "qramm"
  title := "Quantum Readiness Assurance Maturity Model (QRAMM)"
  rules :=
    [ { predicates := [.algorithm "MD5"], clause := "QRAMM:CRYPTO-legacy-hash",
        verdict := .nonCompliant,
        note := "Legacy hash in use; remediate before PQC maturity can be assessed." },
      { predicates := [.algorithm "SHA1"], clause := "QRAMM:CRYPTO-legacy-hash",
        verdict := .nonCompliant },
      { predicates := [.algorithm "3DES"], clause := "QRAMM:CRYPTO-legacy-cipher",
        verdict := .nonCompliant },
      { predicates := [.algorithm "RC4"], clause := "QRAMM:CRYPTO-legacy-cipher",
        verdict := .nonCompliant },
      { predicates := [.algorithm "RSA", .keySizeLt 3072],
        clause := "QRAMM:CRYPTO-rsa-undersized", verdict := .nonCompliant,
        note := "RSA <3072 is both classically weak and quantum-vulnerable." },
      { predicates := [.algorithm "RSA"], clause := "QRAMM:CRYPTO-quantum-vulnerable-kex",
        verdict := .atRisk, deadline := some "2030-01-01",
        note := "Harvest-now-decrypt-later: migrate key establishment to ML-KEM first." },
      { predicates := [.algorithm "DH"], clause := "QRAMM:CRYPTO-quantum-vulnerable-kex",
        verdict := .atRisk, deadline := some "2030-01-01" },
      { predicates := [.algorithm "ECDH"],
        clause := "QRAMM:CRYPTO-quantum-vulnerable-kex", verdict := .atRisk,
        deadline := some "2030-01-01" },
      { predicates := [.algorithm "ECDSA"],
        clause := "QRAMM:CRYPTO-quantum-vulnerable-sig", verdict := .atRisk,
        deadline := some "2035-01-01" },
      { predicates := [.algorithm "ED25519"],
        clause := "QRAMM:CRYPTO-quantum-vulnerable-sig", verdict := .atRisk,
        deadline := some "2035-01-01" },
      { predicates := [.algorithm "DSA"], clause := "QRAMM:CRYPTO-quantum-vulnerable-sig",
        verdict := .atRisk, deadline := some "2035-01-01" },
      { predicates := [.algorithm "AES-128"], clause := "QRAMM:CRYPTO-symmetric-headroom",
        verdict := .advisory,
        note := "AES-128 acceptable short-term; prefer AES-256 for long-lived data." },
      { predicates := [.algorithm "AES-256"],
        clause := "QRAMM:CRYPTO-symmetric-quantum-safe", verdict := .compliant },
      { predicates := [.algorithm "ML-KEM"], clause := "QRAMM:CRYPTO-pqc-kem",
        verdict := .compliant },
      { predicates := [.algorithm "ML-DSA"], clause := "QRAMM:CRYPTO-pqc-sig",
        verdict := .compliant },
      { predicates := [.algorithm "SLH-DSA"], clause := "QRAMM:CRYPTO-pqc-sig",
        verdict := .compliant } ]

/-- `uk-ncsc.yaml`. -/
def ukNcsc : FrameworkRules where
  framework := "uk-ncsc"
  title := "UK NCSC — Timelines for Migration to Post-Quantum Cryptography"
  rules :=
    [ { predicates := [.algorithm "SHA-1"], clause := "NCSC:legacy-hash-disallowed",
        verdict := .nonCompliant,
        note := "SHA-1 already unsuitable independent of PQC timelines." },
      { predicates := [.algorithm "MD5"], clause := "NCSC:legacy-hash-disallowed",
        verdict := .nonCompliant },
      { predicates := [.algorithm "RSA"], clause := "NCSC:PQC-milestone-discovery",
        verdict := .atRisk, deadline := some "2028-12-31",
        note := "By 2028 discover and plan; RSA is quantum-vulnerable and must be in scope." },
      { predicates := [.algorithm "ECDSA"], clause := "NCSC:PQC-milestone-priority",
        verdict := .atRisk, deadline := some "2031-12-31",
        note := "By 2031 migrate highest-priority critical systems off ECDSA." },
      { predicates := [.algorithm "ECDH"], clause := "NCSC:PQC-milestone-priority",
        verdict := .atRisk, deadline := some "2031-12-31" },
      { predicates := [.algorithm "DSA"], clause := "NCSC:PQC-milestone-complete",
        verdict := .atRisk, deadline := some "2035-12-31",
        note := "By 2035 complete migration to PQC for all systems, services and products." },
      { predicates := [.algorithm "DH"], clause := "NCSC:PQC-milestone-complete",
        verdict := .atRisk, deadline := some "2035-12-31" },
      { predicates := [.algorithm "ML-KEM"], clause := "NCSC:PQC-aligned",
        verdict := .compliant },
      { predicates := [.algorithm "ML-DSA"], clause := "NCSC:PQC-aligned",
        verdict := .compliant },
      { predicates := [.algorithm "SLH-DSA"], clause := "NCSC:PQC-aligned",
        verdict := .compliant } ]

/-- The frameworks that the engine loads. -/
def frameworks : List FrameworkRules :=
  [anssiPqc, auAsdIsm, bsiTr021021, bukukerja, caCccs, cnsa2, enisaPqc, euDora, euNis2,
    iso270012022, jpCryptrec, masNotice655, mykriptoMigrationFramework, nacsaArahanKe9,
    nistIr8547, nistSp800227, pciDss4, qramm, ukNcsc]

end Compliance
end PqcScan
